import AtariTos.Proofs.AreaChanges
import AtariTos.Proofs.BigEndian
import AtariTos.Proofs.MemoryReads

namespace AtariTos

namespace Area

variable {a b : Area} {addr : UInt32} {n : Nat} {data : List UInt8}

def held? (a : Area) (n : Nat) : Option UInt8 :=
  match a.storage with
  | .buffer bytes => if a.base.toNat ≤ n ∧ n < a.stop then bytes[n - a.base.toNat]? else none
  | .device _ _ => none

theorem held?_of_notMem (outside : n ∉ a.addresses) : a.held? n = none := by
  unfold held?
  split
  · exact if_neg outside
  · rfl

theorem held?_ofBuffer {name : String} {base : UInt32} {bytes : Bytes} {rights : Rights}
    (inside : n ∈ (ofBuffer name base bytes rights).addresses) :
    (ofBuffer name base bytes rights).held? n = bytes[n - base.toNat]? :=
  if_pos inside

theorem getElem?_peek {count i : Nat} (buffer : a.isBuffer = true)
    (inside : addr.toNat ∈ a.addresses) (fits : addr.toNat + count ≤ a.stop) (h : i < count) :
    (a.peek addr count)[i]? = a.held? (addr.toNat + i) := by
  obtain ⟨name, base, bytes, rights, rfl⟩ := exists_of_isBuffer buffer
  have low : base.toNat ≤ addr.toNat := inside.1
  have room : addr.toNat - base.toNat + count ≤ bytes.size := fits_of_buffer inside fits
  have inside' : addr.toNat + i ∈ (ofBuffer name base bytes rights).addresses :=
    ⟨Nat.le_trans low (Nat.le_add_right _ _), by omega⟩
  have place : addr.toNat - base.toNat + i = addr.toNat + i - base.toNat := by omega
  rw [held?_ofBuffer inside', ← place]
  exact Bytes.getElem?_extract room h

theorem held?_store (buffer : a.isBuffer = true) (inside : addr.toNat ∈ a.addresses)
    (fits : addr.toNat + data.length ≤ a.stop) (n : Nat) :
    (a.store addr data).held? n =
      if addr.toNat ≤ n ∧ n < addr.toNat + data.length then data[n - addr.toNat]?
      else a.held? n := by
  have same : (a.store addr data).addresses = a.addresses :=
    addresses_eq_of_outline (a.outline_store addr data)
  by_cases here : n ∈ a.addresses
  · obtain ⟨name, base, bytes, rights, rfl⟩ := exists_of_isBuffer buffer
    have low : base.toNat ≤ addr.toNat := inside.1
    have low' : base.toNat ≤ n := here.1
    have room : addr.toNat - base.toNat + data.length ≤ bytes.size := fits_of_buffer inside fits
    have stored : (ofBuffer name base bytes rights).store addr data =
        ofBuffer name base (Bytes.overwrite bytes (addr.toNat - base.toNat) data) rights := rfl
    rw [stored] at same ⊢
    rw [held?_ofBuffer (same ▸ here), held?_ofBuffer here]
    split
    next written =>
      have place : n - base.toNat = addr.toNat - base.toNat + (n - addr.toNat) := by omega
      rw [place, Bytes.getElem?_overwrite_add room (by omega)]
    next kept =>
      exact Bytes.getElem?_overwrite (by omega)
  · have outside : ¬(addr.toNat ≤ n ∧ n < addr.toNat + data.length) := by
      rintro ⟨low, high⟩
      exact here ⟨Nat.le_trans inside.1 low, Nat.lt_of_lt_of_le high fits⟩
    rw [if_neg outside, held?_of_notMem here, held?_of_notMem (same ▸ here)]

theorem contains_eq_of_outline (h : a.outline = b.outline) (addr : UInt32) :
    a.contains addr = b.contains addr := by
  rw [contains, contains, base_eq_of_outline h, stop_eq_of_outline h]

theorem covers_eq_of_outline (h : a.outline = b.outline) (addr : UInt32) (count : Nat) :
    a.covers addr count = b.covers addr count := by
  rw [covers, covers, contains_eq_of_outline h, stop_eq_of_outline h]

end Area

namespace GuestMemory

variable {memory next : GuestMemory} {area : Area} {addr other : UInt32} {count n : Nat}
  {access : Access} {mode mode' : Privilege} {data : List UInt8}

/-- The byte that the buffers of guest memory hold for an address. -/
def flat (memory : GuestMemory) (n : Nat) : Option UInt8 :=
  memory.areas.findSome? (·.held? n)

theorem Ordered.flat_eq (ordered : memory.Ordered) (member : area ∈ memory.areas)
    (inside : n ∈ area.addresses) : memory.flat n = area.held? n := by
  cases found : memory.flat n with
  | none => exact (List.findSome?_eq_none_iff.mp found area member).symm
  | some byte =>
    obtain ⟨holder, there, held⟩ := List.exists_of_findSome?_eq_some found
    have inside' : n ∈ holder.addresses := by
      by_contra outside
      rw [Area.held?_of_notMem outside] at held
      cases held
    rw [ordered.eq_of_mem_addresses member there inside inside', held]

theorem flat_of_unmapped (outside : ∀ a ∈ memory.areas, n ∉ a.addresses) :
    memory.flat n = none :=
  List.findSome?_eq_none_iff.mpr fun a ha => Area.held?_of_notMem (outside a ha)

variable {base : UInt32} {change : Area → Area}

theorem find?_modify (kept : ∀ a, (change a).outline = a.outline) (addr : UInt32) :
    (memory.modify base change).find? addr =
      (memory.find? addr).map fun a => if a.base = base then change a else a := by
  let changed (a : Area) : Area := if a.base = base then change a else a
  have outline (a : Area) : (changed a).outline = a.outline := by
    by_cases here : a.base = base
    · simp [changed, here, kept]
    · simp [changed, here]
  have below : ((fun a : Area => decide (a.base ≤ addr)) ∘ changed) =
      fun a : Area => decide (a.base ≤ addr) := by
    funext a
    simp [Area.base_eq_of_outline (outline a)]
  have nearest : (memory.modify base change).nearest? addr =
      (memory.nearest? addr).map changed := by
    rw [nearest?, nearest?, modify, List.filter_map, List.getLast?_map]
    exact congrArg (fun keep => (memory.areas.filter keep).getLast?.map changed) below
  rw [find?, find?, nearest]
  cases memory.nearest? addr with
  | none => rfl
  | some a =>
    rw [Option.map_some, Option.filter_some, Option.filter_some,
      Area.contains_eq_of_outline (outline a)]
    split <;> rfl

theorem locate_modify_eq (kept : ∀ a, (change a).outline = a.outline) :
    (memory.modify base change).locate addr count access mode =
      (memory.locate addr count access mode).map
        fun a => if a.base = base then change a else a := by
  have outline (a : Area) : (if a.base = base then change a else a).outline = a.outline := by
    split
    · exact kept a
    · rfl
  unfold locate
  rw [find?_modify kept]
  cases memory.find? addr with
  | none => rfl
  | some a =>
    dsimp only [Option.map_some]
    rw [Area.covers_eq_of_outline (outline a), Area.rights_eq_of_outline (outline a)]
    split
    · rfl
    · split <;> rfl

theorem locate_supervisor (located : memory.locate addr count access .user = .ok area) :
    memory.locate addr count access .supervisor = .ok area := by
  unfold locate at located ⊢
  cases found : memory.find? addr with
  | none =>
    rw [found] at located
    cases located
  | some a =>
    rw [found] at located
    dsimp only at located ⊢
    split at located
    · cases located
    next covered =>
      split at located
      next allowed => rw [if_neg covered, if_pos (Rights.permits_supervisor allowed), located]
      · cases located

/-- One area holds a whole range of addresses and has a right. -/
def Grants (memory : GuestMemory) (addr : UInt32) (count : Nat) (right : Rights → Bool) : Prop :=
  ∃ a ∈ memory.areas, Set.Ico addr.toNat (addr.toNat + count) ⊆ a.addresses ∧ right a.rights = true

theorem fits_of_subset (positive : 0 < count)
    (within : Set.Ico addr.toNat (addr.toNat + count) ⊆ area.addresses) :
    addr.toNat ∈ area.addresses ∧ addr.toNat + count ≤ area.stop := by
  have first : addr.toNat ∈ area.addresses := within ⟨Nat.le_refl _, by omega⟩
  have last : addr.toNat + (count - 1) ∈ area.addresses := within ⟨by omega, by omega⟩
  have := last.2
  exact ⟨first, by omega⟩

theorem Ordered.exists_locate_iff (ordered : memory.Ordered) (positive : 0 < count) :
    (∃ area, memory.locate addr count access mode = .ok area) ↔
      memory.Grants addr count (·.permits access mode) := by
  constructor
  · rintro ⟨area, located⟩
    obtain ⟨member, inside, fits, allowed⟩ := ordered.locate_eq_ok_iff.mp located
    refine ⟨area, member, fun n hn => ?_, allowed⟩
    exact ⟨Nat.le_trans inside.1 hn.1, Nat.lt_of_lt_of_le hn.2 fits⟩
  · rintro ⟨area, member, within, allowed⟩
    obtain ⟨first, fits⟩ := fits_of_subset positive within
    exact ⟨area, ordered.locate_eq_ok_iff.mpr ⟨member, first, fits, allowed⟩⟩

theorem exists_map_iff {ε α β : Type} {outcome : Except ε α} {f : α → β} :
    (∃ got, outcome.map f = .ok got) ↔ ∃ got, outcome = .ok got := by
  cases outcome with
  | error cause => simp [Except.map]
  | ok got => simp [Except.map]

theorem map_map {ε α β γ : Type} (outcome : Except ε α) (f : α → β) (g : β → γ) :
    (outcome.map f).map g = outcome.map (g ∘ f) := by
  cases outcome with
  | error cause => rfl
  | ok got => rfl

theorem load_eq (positive : 0 < count) : memory.load addr count mode =
    (memory.locate addr count .read mode).map fun area =>
      ((area.load addr count).1,
        if area.isBuffer then memory
        else memory.modify area.base fun _ => (area.load addr count).2) := by
  rw [load_cases, if_neg (Nat.ne_of_gt positive)]
  cases memory.locate addr count .read mode with
  | error fault => rfl
  | ok area =>
    dsimp only [Except.map]
    split <;> rfl

theorem store_eq (filled : data ≠ []) : memory.store addr data mode =
    (memory.locate addr data.length .write mode).map
      fun area => memory.modify area.base (·.store addr data) := by
  rw [store_cases, if_neg (by rwa [List.isEmpty_iff])]
  cases memory.locate addr data.length .write mode with
  | error fault => rfl
  | ok area => rfl

theorem peekBytes_eq : memory.peekBytes addr count mode =
    (memory.locate addr count .peek mode).map (·.peek addr count) := by
  unfold peekBytes
  cases memory.locate addr count .peek mode with
  | error fault => rfl
  | ok area => rfl

theorem exists_load_iff (positive : 0 < count) : (∃ got, memory.load addr count mode = .ok got) ↔
    ∃ area, memory.locate addr count .read mode = .ok area := by
  rw [load_eq positive]
  exact exists_map_iff

theorem exists_store_iff (filled : data ≠ []) :
    (∃ next, memory.store addr data mode = .ok next) ↔
      ∃ area, memory.locate addr data.length .write mode = .ok area := by
  rw [store_eq filled]
  exact exists_map_iff

theorem exists_peekBytes_iff : (∃ bytes, memory.peekBytes addr count mode = .ok bytes) ↔
    ∃ area, memory.locate addr count .peek mode = .ok area := by
  rw [peekBytes_eq]
  exact exists_map_iff

theorem locate_map_supervisor {α : Type} {f : Area → α} {got : α}
    (h : (memory.locate addr count access .user).map f = .ok got) :
    (memory.locate addr count access .supervisor).map f = .ok got := by
  cases located : memory.locate addr count access .user with
  | error fault =>
    rw [located] at h
    cases h
  | ok area =>
    rw [located] at h
    rw [locate_supervisor located]
    exact h

theorem encode_ne_nil (width : Width) (value : UInt32) : width.encode value ≠ [] := by
  have length := width.encode_length value
  have positive := width.bytes_pos
  intro empty
  rw [empty] at length
  simp at length
  omega

variable {width width' : Width} {value : UInt32}

theorem value_read : (memory.read addr width mode).map (·.1) =
    (memory.locate addr width.bytes .read mode).map
      fun area => longOfBytes (area.load addr width.bytes).1 := by
  rw [read, load_eq width.bytes_pos, map_map, map_map]
  rfl

theorem peek_eq : memory.peek addr width mode =
    (memory.locate addr width.bytes .peek mode).map
      fun area => longOfBytes (area.peek addr width.bytes) := by
  rw [peek, peekBytes_eq, map_map]
  rfl

theorem read_supervisor {got : UInt32 × GuestMemory} (h : memory.read addr width .user = .ok got) :
    memory.read addr width .supervisor = .ok got := by
  rw [read, load_eq width.bytes_pos, map_map] at h ⊢
  exact locate_map_supervisor h

theorem write_supervisor (h : memory.write addr width value .user = .ok next) :
    memory.write addr width value .supervisor = .ok next := by
  rw [write, store_eq (encode_ne_nil width value)] at h ⊢
  exact locate_map_supervisor h

theorem peek_supervisor (h : memory.peek addr width .user = .ok value) :
    memory.peek addr width .supervisor = .ok value := by
  rw [peek_eq] at h ⊢
  exact locate_map_supervisor h

theorem Ordered.flat_of_peek (ordered : memory.Ordered) (member : area ∈ memory.areas)
    (buffer : area.isBuffer = true) (inside : addr.toNat ∈ area.addresses)
    (h : memory.peek addr width mode = .ok value) :
    value.toNat < 256 ^ width.bytes ∧
      ∀ i < width.bytes, memory.flat (addr.toNat + i) = some (width.byteOf value i) := by
  obtain ⟨served, located⟩ :=
    exists_peekBytes_iff.mp (exists_map_iff.mp ⟨value, h⟩)
  obtain ⟨member', inside', fits, _⟩ := ordered.locate_eq_ok_iff.mp located
  obtain rfl := ordered.eq_of_mem_addresses member member' inside inside'
  rw [peek, peekBytes_of_locate located] at h
  cases h
  have length : (area.peek addr width.bytes).length = width.bytes := by
    rw [← Area.load_of_isBuffer buffer]
    exact Area.length_load inside fits
  refine ⟨Width.longOfBytes_lt length, fun i hi => ?_⟩
  have there : addr.toNat + i ∈ area.addresses :=
    ⟨Nat.le_trans inside.1 (Nat.le_add_right _ _), by omega⟩
  rw [ordered.flat_eq member there, ← Area.getElem?_peek buffer inside fits hi]
  exact Width.getElem?_eq_byteOf length hi

theorem Ordered.peek_of_read (ordered : memory.Ordered) (member : area ∈ memory.areas)
    (buffer : area.isBuffer = true) (inside : addr.toNat ∈ area.addresses)
    (h : memory.read addr width mode = .ok (value, next)) :
    next = memory ∧ memory.peek addr width mode = .ok value := by
  have found := ordered.find?_eq_some_iff.mpr ⟨member, inside⟩
  cases loaded : memory.load addr width.bytes mode with
  | error fault =>
    rw [read, loaded] at h
    cases h
  | ok got =>
    obtain ⟨bytes, last⟩ := got
    rw [read, loaded] at h
    cases h
    have seen := ordered.peekBytes_of_load (Nat.ne_of_gt width.bytes_pos) found buffer loaded
    refine ⟨?_, by rw [peek, seen]; rfl⟩
    rcases ordered.load_eq_ok loaded with ⟨_, _, same⟩ | ⟨a, ha, inside', _, _, _, same⟩
    · exact same
    · obtain rfl := ordered.eq_of_mem_addresses member ha inside inside'
      rcases same with same | ⟨device, _⟩
      · exact same
      · rw [buffer] at device
        cases device

theorem Ordered.flat_of_store (ordered : memory.Ordered) (member : area ∈ memory.areas)
    (buffer : area.isBuffer = true) (inside : addr.toNat ∈ area.addresses)
    (h : memory.store addr data mode = .ok next) (n : Nat) :
    next.flat n =
      if addr.toNat ≤ n ∧ n < addr.toNat + data.length then data[n - addr.toNat]?
      else memory.flat n := by
  have ordered' := ordered.of_layout (ordered.layout_store h)
  rcases ordered.store_eq_ok h with ⟨rfl, rfl⟩ | ⟨written, member', inside', fits, _, rfl⟩
  · simp
  obtain rfl := ordered.eq_of_mem_addresses member member' inside inside'
  by_cases mapped : ∃ a ∈ memory.areas, n ∈ a.addresses
  · obtain ⟨a, ha, there⟩ := mapped
    have image := List.mem_map_of_mem
      (f := fun a : Area => if a.base = area.base then a.store addr data else a) ha
    by_cases here : a.base = area.base
    · obtain rfl := ordered.eq_of_base ha member here
      rw [if_pos rfl] at image
      have there' : n ∈ (a.store addr data).addresses := by
        rwa [Area.addresses_eq_of_outline (a.outline_store addr data)]
      rw [ordered'.flat_eq image there', ordered.flat_eq ha there,
        Area.held?_store buffer inside fits]
    · rw [if_neg here] at image
      have outside : ¬(addr.toNat ≤ n ∧ n < addr.toNat + data.length) := by
        rintro ⟨low, high⟩
        have shared : n ∈ area.addresses :=
          ⟨Nat.le_trans inside.1 low, Nat.lt_of_lt_of_le high fits⟩
        exact here (ordered.eq_of_mem_addresses ha member there shared ▸ rfl)
      rw [if_neg outside, ordered'.flat_eq image there, ordered.flat_eq ha there]
  · push Not at mapped
    have outside : ¬(addr.toNat ≤ n ∧ n < addr.toNat + data.length) := by
      rintro ⟨low, high⟩
      exact mapped area member ⟨Nat.le_trans inside.1 low, Nat.lt_of_lt_of_le high fits⟩
    rw [if_neg outside, flat_of_unmapped mapped]
    refine flat_of_unmapped fun b hb there => ?_
    obtain ⟨a, ha, outline⟩ := exists_of_layout (ordered.layout_store h).symm hb
    exact mapped a ha (Area.addresses_eq_of_outline outline ▸ there)

theorem Ordered.map_locate_modify {α : Type} {f : Area → α} (ordered : memory.Ordered)
    (kept : ∀ a, (change a).outline = a.outline) (member : area ∈ memory.areas)
    (same : memory.locate addr count access mode = .ok area → f (change area) = f area) :
    ((memory.modify area.base change).locate addr count access mode).map f =
      (memory.locate addr count access mode).map f := by
  rw [locate_modify_eq kept, map_map]
  cases located : memory.locate addr count access mode with
  | error fault => rfl
  | ok a =>
    simp only [Except.map, Function.comp_apply]
    split
    next here =>
      obtain rfl := ordered.eq_of_base (ordered.locate_eq_ok_iff.mp located).1 member here
      rw [same located]
    · rfl

/-- An access that stays clear of what has been written to a buffer is not affected, wherever it
goes. -/
theorem Ordered.accesses_of_apart (ordered : memory.Ordered) (member : area ∈ memory.areas)
    (buffer : area.isBuffer = true) (inside : addr.toNat ∈ area.addresses)
    (h : memory.store addr data mode = .ok next)
    (apart : other.toNat + width'.bytes ≤ addr.toNat ∨ addr.toNat + data.length ≤ other.toNat) :
    (next.read other width' mode').map (·.1) = (memory.read other width' mode').map (·.1) ∧
      next.peek other width' mode' = memory.peek other width' mode' := by
  rcases ordered.store_eq_ok h with ⟨rfl, rfl⟩ | ⟨written, member', inside', fits, _, rfl⟩
  · exact ⟨rfl, rfl⟩
  obtain rfl := ordered.eq_of_mem_addresses member member' inside inside'
  have kept (a : Area) : (a.store addr data).outline = a.outline := a.outline_store addr data
  have stored : (area.store addr data).isBuffer = true := (area.isBuffer_store addr data).trans buffer
  have unseen {access : Access}
      (located : memory.locate other width'.bytes access mode' = .ok area) :
      (area.store addr data).peek other width'.bytes = area.peek other width'.bytes := by
    obtain ⟨_, there, room, _⟩ := ordered.locate_eq_ok_iff.mp located
    exact Area.peek_store_of_apart buffer there room inside apart
  constructor
  · rw [value_read, value_read]
    refine ordered.map_locate_modify kept member fun located => ?_
    rw [Area.load_of_isBuffer stored, Area.load_of_isBuffer buffer, unseen located]
  · rw [peek_eq, peek_eq]
    refine ordered.map_locate_modify kept member fun located => ?_
    rw [unseen located]

theorem Ordered.flat_of_write (ordered : memory.Ordered) (member : area ∈ memory.areas)
    (buffer : area.isBuffer = true) (inside : addr.toNat ∈ area.addresses)
    (h : memory.write addr width value mode = .ok next) :
    (∀ i < width.bytes, next.flat (addr.toNat + i) = some (width.byteOf value i)) ∧
      ∀ n, n ∉ Set.Ico addr.toNat (addr.toNat + width.bytes) → next.flat n = memory.flat n := by
  have flat := ordered.flat_of_store member buffer inside h
  rw [width.encode_length] at flat
  refine ⟨fun i hi => ?_, fun n outside => ?_⟩
  · have place : addr.toNat + i - addr.toNat = i := by omega
    rw [flat, if_pos ⟨by omega, by omega⟩, place]
    exact Width.getElem?_encode value hi
  · rw [flat]
    exact if_neg outside

theorem change_load_of_error {fault : Fault} (h : memory.read addr width mode = .error fault) :
    memory.change (.load addr width.bytes mode) = memory := by
  cases loaded : memory.load addr width.bytes mode with
  | error cause => rw [change, tryLoad_eq, loaded]
  | ok got =>
    rw [read, loaded] at h
    cases h

theorem change_store_of_error {fault : Fault}
    (h : memory.write addr width value mode = .error fault) :
    memory.change (.store addr (width.encode value) mode) = memory := by
  rw [write] at h
  rw [change, tryStore_eq, h]

theorem isBuffer_of_store (h : memory.store addr data mode = .ok next) :
    next.areas.map (·.isBuffer) = memory.areas.map (·.isBuffer) := by
  by_cases none : data = []
  · rw [store_cases, if_pos (List.isEmpty_iff.mpr none)] at h
    cases h
    rfl
  · obtain ⟨area, _, rfl⟩ := locate_of_store none h
    rw [modify, List.map_map]
    refine List.map_congr_left fun a _ => ?_
    dsimp only [Function.comp_apply]
    split
    · exact a.isBuffer_store addr data
    · rfl

theorem Ordered.byteOf_of_write (ordered : memory.Ordered) (member : area ∈ memory.areas)
    (buffer : area.isBuffer = true) (inside : addr.toNat ∈ area.addresses)
    (h : memory.write addr width value mode = .ok next) {width' : Width} {value' : UInt32}
    {last : GuestMemory} (read : next.read other width' mode' = .ok (value', last)) {i j : Nat}
    (hi : i < width.bytes) (hj : j < width'.bytes)
    (same : other.toNat + j = addr.toNat + i) :
    width'.byteOf value' j = width.byteOf value i := by
  have layout := ordered.layout_store h
  have ordered' := ordered.of_layout layout
  obtain ⟨served, located⟩ := (exists_load_iff width'.bytes_pos).mp (exists_map_iff.mp ⟨_, read⟩)
  obtain ⟨there, start, room, _⟩ := ordered'.locate_eq_ok_iff.mp located
  obtain ⟨written, found, changed⟩ := locate_of_store (encode_ne_nil width value) h
  obtain ⟨member', inside', fits, _⟩ := ordered.locate_eq_ok_iff.mp found
  obtain rfl := ordered.eq_of_mem_addresses member member' inside inside'
  rw [width.encode_length] at fits
  -- the area that serves the read is the one that has been written to
  have host : served.isBuffer = true := by
    have image : area.store addr (width.encode value) ∈ next.areas := by
      rw [changed]
      exact List.mem_map.mpr ⟨area, member, if_pos rfl⟩
    have here : addr.toNat + i ∈ (area.store addr (width.encode value)).addresses := by
      rw [Area.addresses_eq_of_outline (area.outline_store addr _)]
      exact ⟨Nat.le_trans inside.1 (Nat.le_add_right _ _), by omega⟩
    have here' : addr.toNat + i ∈ served.addresses := by
      have low := start.1
      exact ⟨by omega, by omega⟩
    rw [ordered'.eq_of_mem_addresses there image here' here, Area.isBuffer_store, buffer]
  obtain ⟨_, seen⟩ := ordered'.peek_of_read there host start read
  have held := (ordered'.flat_of_peek there host start seen).2 j hj
  have stored := (ordered.flat_of_write member buffer inside h).1 i hi
  rw [same, stored] at held
  exact (Option.some.inj held).symm

/-- Whatever has been done to an empty table of areas, an access succeeds exactly when one area holds
all its bytes and grants the mode that right. A buffer answers its bytes, the most significant first,
to reads and peeks alike; a write to it stores the bytes of the value, which every later access finds
there, and nothing else changes. A failed access changes nothing, and what a user may do a
supervisor may do with the same result. -/
theorem bus_refines_flat_memory (changes : List TableChange) :
    let memory := empty.changeAll changes
    (∀ addr width mode,
      ((∃ got, memory.read addr width mode = .ok got) ↔
        memory.Grants addr width.bytes (·.mayRead mode)) ∧
      ((∃ value, memory.peek addr width mode = .ok value) ↔
        memory.Grants addr width.bytes fun r => r.mayRead mode || r.mayWrite mode) ∧
      ∀ value, (∃ next, memory.write addr width value mode = .ok next) ↔
        memory.Grants addr width.bytes (·.mayWrite mode)) ∧
    (∀ area ∈ memory.areas, area.isBuffer = true →
      ∀ addr : UInt32, addr.toNat ∈ area.addresses → ∀ width mode,
      (∀ value next, memory.read addr width mode = .ok (value, next) →
        next = memory ∧ memory.peek addr width mode = .ok value) ∧
      (∀ value, memory.peek addr width mode = .ok value → value.toNat < 256 ^ width.bytes ∧
        ∀ i < width.bytes, memory.flat (addr.toNat + i) = some (width.byteOf value i)) ∧
      ∀ value next, memory.write addr width value mode = .ok next →
        next.layout = memory.layout ∧
        next.areas.map (·.isBuffer) = memory.areas.map (·.isBuffer) ∧
        (∀ i < width.bytes, next.flat (addr.toNat + i) = some (width.byteOf value i)) ∧
        (∀ n, n ∉ Set.Ico addr.toNat (addr.toNat + width.bytes) → next.flat n = memory.flat n) ∧
        (∀ other width' mode' value' last, next.read other width' mode' = .ok (value', last) →
          ∀ i < width.bytes, ∀ j < width'.bytes, other.toNat + j = addr.toNat + i →
            width'.byteOf value' j = width.byteOf value i) ∧
        ∀ other width' mode',
          other.toNat + width'.bytes ≤ addr.toNat ∨ addr.toNat + width.bytes ≤ other.toNat →
            (next.read other width' mode').map (·.1) =
              (memory.read other width' mode').map (·.1) ∧
            next.peek other width' mode' = memory.peek other width' mode') ∧
    (∀ addr width mode fault, memory.read addr width mode = .error fault →
      memory.change (.load addr width.bytes mode) = memory) ∧
    (∀ addr width value mode fault, memory.write addr width value mode = .error fault →
      memory.change (.store addr (width.encode value) mode) = memory) ∧
    ∀ addr width,
      (∀ got, memory.read addr width .user = .ok got →
        memory.read addr width .supervisor = .ok got) ∧
      (∀ value, memory.peek addr width .user = .ok value →
        memory.peek addr width .supervisor = .ok value) ∧
      ∀ value next, memory.write addr width value .user = .ok next →
        memory.write addr width value .supervisor = .ok next := by
  intro memory
  have ordered : memory.Ordered := ordered_empty.changeAll changes
  refine ⟨fun addr width mode => ⟨?_, ?_, fun value => ?_⟩,
    fun area member buffer addr inside width mode =>
      ⟨fun value next h => ordered.peek_of_read member buffer inside h,
        fun value h => ordered.flat_of_peek member buffer inside h, fun value next h => ?_⟩,
    fun addr width mode fault h => change_load_of_error h,
    fun addr width value mode fault h => change_store_of_error h,
    fun addr width => ⟨fun got h => read_supervisor h, fun value h => peek_supervisor h,
      fun value next h => write_supervisor h⟩⟩
  · exact exists_map_iff.trans
      ((exists_load_iff width.bytes_pos).trans (ordered.exists_locate_iff width.bytes_pos))
  · exact exists_map_iff.trans
      (exists_peekBytes_iff.trans (ordered.exists_locate_iff width.bytes_pos))
  · have stored : (∃ next, memory.store addr (width.encode value) mode = .ok next) ↔ _ :=
      exists_store_iff (encode_ne_nil width value)
    rw [width.encode_length] at stored
    exact stored.trans (ordered.exists_locate_iff width.bytes_pos)
  · obtain ⟨held, elsewhere⟩ := ordered.flat_of_write member buffer inside h
    refine ⟨ordered.layout_store h, isBuffer_of_store h, held, elsewhere,
      fun other width' mode' value' last read i hi j hj same =>
        ordered.byteOf_of_write member buffer inside h read hi hj same,
      fun other width' mode' apart => ?_⟩
    rw [← width.encode_length value] at apart
    exact ordered.accesses_of_apart member buffer inside h apart

end GuestMemory

end AtariTos
