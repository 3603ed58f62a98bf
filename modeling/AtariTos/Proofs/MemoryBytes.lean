import AtariTos.Proofs.MemoryLayout

namespace AtariTos

namespace Bytes

theorem getElem?_overwrite {buffer : Bytes} {offset i : Nat} {data : List UInt8}
    (h : i < offset ∨ offset + data.length ≤ i) :
    (overwrite buffer offset data)[i]? = buffer[i]? := by
  induction data generalizing buffer offset with
  | nil => rfl
  | cons byte rest ih =>
    simp only [List.length_cons] at h
    have elsewhere : offset ≠ i := by omega
    rw [overwrite, ih (by omega), Array.getElem?_setIfInBounds_ne elsewhere]

end Bytes

namespace Device

/-- What the device shows does not depend on its state. -/
def IsSteady (d : Device) : Prop :=
  ∀ state other offset, d.onPeek state offset = d.onPeek other offset

theorem onPeek_load (d : Device) (offset count : Nat) :
    (d.load offset count).2.onPeek = d.onPeek := by
  induction count generalizing d offset with
  | zero => rfl
  | succ count ih => exact ih _ _

theorem onPeek_store (d : Device) (offset : Nat) (data : List UInt8) :
    (d.store offset data).onPeek = d.onPeek := by
  induction data generalizing d offset with
  | nil => rfl
  | cons value rest ih => exact ih _ _

theorem trampoline_isSteady : trampoline.IsSteady :=
  fun _ _ _ => rfl

end Device

namespace Storage

/-- Only writes can change what is shown. -/
def IsSteady : Storage → Prop
  | .buffer _ => True
  | .device _ d => d.IsSteady

/-- The byte at an offset, as it is seen without being disturbed. -/
def shown? (storage : Storage) (offset : Nat) : Option UInt8 :=
  (storage.peek offset 1).head?

theorem shown?_buffer (bytes : Bytes) (offset : Nat) :
    (buffer bytes).shown? offset = bytes[offset]? := by
  rw [shown?, peek, List.head?_eq_getElem?, Array.getElem?_toList, Array.getElem?_extract]
  split
  · rw [Nat.add_zero]
  next beyond =>
    have : bytes.size ≤ offset := by omega
    rw [Array.getElem?_eq_none this]

theorem shown?_device (len : UInt32) (d : Device) (offset : Nat) :
    (device len d).shown? offset = some (d.peekByte offset) :=
  rfl

variable {storage : Storage} {offset i : Nat}

theorem isSteady_load (count : Nat) (steady : storage.IsSteady) :
    (storage.load offset count).2.IsSteady ∧
      ∀ i, (storage.load offset count).2.shown? i = storage.shown? i := by
  cases storage with
  | buffer bytes => exact ⟨trivial, fun _ => rfl⟩
  | device len d =>
    have kept := d.onPeek_load offset count
    refine ⟨fun state other i => ?_, fun i => ?_⟩
    · rw [kept]
      exact steady state other i
    · rw [load, shown?_device, shown?_device, Device.peekByte, Device.peekByte, kept]
      exact congrArg some (steady _ _ _)

theorem isSteady_store (data : List UInt8) (steady : storage.IsSteady) :
    (storage.store offset data).IsSteady ∧
      ∀ i, i < offset ∨ offset + data.length ≤ i →
        (storage.store offset data).shown? i = storage.shown? i := by
  cases storage with
  | buffer bytes =>
    refine ⟨trivial, fun i outside => ?_⟩
    rw [store, shown?_buffer, shown?_buffer, Bytes.getElem?_overwrite outside]
  | device len d =>
    have kept := d.onPeek_store offset data
    refine ⟨fun state other i => ?_, fun i _ => ?_⟩
    · rw [kept]
      exact steady state other i
    · rw [store, shown?_device, shown?_device, Device.peekByte, Device.peekByte, kept]
      exact congrArg some (steady _ _ _)

end Storage

namespace Area

variable {a b c : Area} {within more : Set Nat} {addr : UInt32}

/-- The byte an area shows at one of its addresses. -/
def shown? (a : Area) (addr : UInt32) : Option UInt8 :=
  a.storage.shown? (a.offset addr)

/-- An area before and after accesses that change it at some addresses only. -/
structure ChangedIn (within : Set Nat) (a b : Area) : Prop where
  outline : b.outline = a.outline
  steady : a.storage.IsSteady → b.storage.IsSteady
  shown : a.storage.IsSteady → ∀ addr, addr.toNat ∈ a.addresses → addr.toNat ∉ within →
    b.shown? addr = a.shown? addr

theorem ChangedIn.refl (a : Area) : a.ChangedIn within a :=
  ⟨rfl, id, fun _ _ _ _ => rfl⟩

theorem ChangedIn.trans (h : a.ChangedIn within b) (h' : b.ChangedIn within c) :
    a.ChangedIn within c := by
  refine ⟨h'.outline.trans h.outline, h'.steady ∘ h.steady, fun steady addr inside outside => ?_⟩
  have inside' : addr.toNat ∈ b.addresses := addresses_eq_of_outline h.outline ▸ inside
  rw [h'.shown (h.steady steady) addr inside' outside, h.shown steady addr inside outside]

theorem ChangedIn.mono (h : a.ChangedIn within b) (sub : within ⊆ more) : a.ChangedIn more b :=
  ⟨h.outline, h.steady, fun steady addr inside outside =>
    h.shown steady addr inside fun hit => outside (sub hit)⟩

theorem changedIn_load (a : Area) (addr : UInt32) (count : Nat) :
    a.ChangedIn within (a.load addr count).2 :=
  ⟨a.outline_load addr count, fun steady => (Storage.isSteady_load count steady).1,
    fun steady _ _ _ => (Storage.isSteady_load count steady).2 _⟩

theorem changedIn_store {data : List UInt8} (inside : addr.toNat ∈ a.addresses) :
    a.ChangedIn (Set.Ico addr.toNat (addr.toNat + data.length)) (a.store addr data) := by
  refine ⟨a.outline_store addr data, fun steady => (Storage.isSteady_store data steady).1,
    fun steady other here outside => (Storage.isSteady_store data steady).2 _ ?_⟩
  have := inside.1
  have := here.1
  have same : (a.store addr data).offset other = other.toNat - a.base.toNat := rfl
  rw [Set.mem_Ico] at outside
  rw [same, offset]
  omega

end Area

namespace GuestMemory

variable {memory next last : GuestMemory} {area : Area} {within more : Set Nat} {addr : UInt32}
  {mode : Privilege}

/-- Guest memory before and after accesses that change it at some addresses only. -/
structure ChangedIn (within : Set Nat) (memory next : GuestMemory) : Prop where
  layout : next.layout = memory.layout
  areas : ∀ a ∈ memory.areas, ∃ b ∈ next.areas, a.ChangedIn within b

theorem ChangedIn.refl (memory : GuestMemory) : memory.ChangedIn within memory :=
  ⟨rfl, fun a ha => ⟨a, ha, .refl a⟩⟩

theorem ChangedIn.trans (h : memory.ChangedIn within next) (h' : next.ChangedIn within last) :
    memory.ChangedIn within last := by
  refine ⟨h'.layout.trans h.layout, fun a ha => ?_⟩
  obtain ⟨b, hb, first⟩ := h.areas a ha
  obtain ⟨c, hc, second⟩ := h'.areas b hb
  exact ⟨c, hc, first.trans second⟩

theorem ChangedIn.mono (h : memory.ChangedIn within next) (sub : within ⊆ more) :
    memory.ChangedIn more next := by
  refine ⟨h.layout, fun a ha => ?_⟩
  obtain ⟨b, hb, changed⟩ := h.areas a ha
  exact ⟨b, hb, changed.mono sub⟩

theorem changedIn_modify {base : UInt32} {change : Area → Area}
    (h : ∀ a ∈ memory.areas, a.base = base → a.ChangedIn within (change a)) :
    memory.ChangedIn within (memory.modify base change) := by
  refine ⟨layout_modify fun a ha here => (h a ha here).outline, fun a ha => ?_⟩
  refine ⟨_, List.mem_map_of_mem ha, ?_⟩
  split
  next here => exact h a ha here
  · exact .refl a

/-- The addresses that a privilege may write to. -/
def writable (memory : GuestMemory) (mode : Privilege) : Set Nat :=
  {n | ∃ a ∈ memory.areas, n ∈ a.addresses ∧ a.rights.mayWrite mode = true}

theorem writable_of_layout (same : next.layout = memory.layout) :
    next.writable mode = memory.writable mode := by
  have sub {m m' : GuestMemory} (same : m'.layout = m.layout) :
      m.writable mode ⊆ m'.writable mode := by
    rintro n ⟨a, ha, inside, allowed⟩
    obtain ⟨b, hb, outline⟩ := exists_of_layout same ha
    refine ⟨b, hb, ?_, ?_⟩
    · rwa [Area.addresses_eq_of_outline outline]
    · rwa [Area.rights_eq_of_outline outline]
  exact Set.Subset.antisymm (sub same.symm) (sub same)

theorem Ordered.changedIn_store (ordered : memory.Ordered) {data : List UInt8}
    (h : memory.store addr data mode = .ok next) :
    memory.ChangedIn
      (Set.Ico addr.toNat (addr.toNat + data.length) ∩ memory.writable mode) next := by
  rcases ordered.store_eq_ok h with ⟨_, rfl⟩ | ⟨area, member, inside, fits, allowed, rfl⟩
  · exact .refl _
  · refine changedIn_modify fun a ha same => ?_
    obtain rfl := ordered.eq_of_base ha member same
    refine (Area.changedIn_store inside).mono fun n hn => ⟨hn, a, ha, ⟨?_, ?_⟩, allowed⟩
    · exact Nat.le_trans inside.1 hn.1
    · exact Nat.lt_of_lt_of_le hn.2 fits

theorem Ordered.changedIn_load (ordered : memory.Ordered) {count : Nat} {values : List UInt8}
    (h : memory.load addr count mode = .ok (values, next)) : memory.ChangedIn within next := by
  rcases ordered.load_eq_ok h with ⟨_, _, rfl⟩ | ⟨area, member, _, _, _, _, rfl | ⟨_, rfl⟩⟩
  · exact .refl _
  · exact .refl _
  · refine changedIn_modify fun a ha same => ?_
    obtain rfl := ordered.eq_of_base ha member same
    exact a.changedIn_load addr count

theorem Ordered.changedIn_write (ordered : memory.Ordered) {width : Width} {value : UInt32}
    (h : memory.write addr width value mode = .ok next) :
    memory.ChangedIn (Set.Ico addr.toNat (addr.toNat + width.bytes)) next := by
  have changed := ordered.changedIn_store h
  rw [Width.encode_length] at changed
  exact changed.mono Set.inter_subset_left

theorem Ordered.changedIn_read (ordered : memory.Ordered) {width : Width} {value : UInt32}
    (h : memory.read addr width mode = .ok (value, next)) : memory.ChangedIn within next := by
  unfold read at h
  cases loaded : memory.load addr width.bytes mode with
  | error fault =>
    rw [loaded] at h
    cases h
  | ok result =>
    rw [loaded] at h
    cases h
    exact ordered.changedIn_load loaded

/-- The byte at an address, as it is seen without being disturbed. -/
def byteAt? (memory : GuestMemory) (addr : UInt32) : Option UInt8 :=
  (memory.find? addr).bind (·.shown? addr)

theorem Ordered.byteAt?_of_mem (ordered : memory.Ordered) (member : area ∈ memory.areas)
    (inside : addr.toNat ∈ area.addresses) : memory.byteAt? addr = area.shown? addr := by
  rw [byteAt?, ordered.find?_eq_some_iff.mpr ⟨member, inside⟩]
  rfl

/-- The address is not that of a device that shows its state. -/
def SteadyAt (memory : GuestMemory) (addr : UInt32) : Prop :=
  ∀ a ∈ memory.areas, addr.toNat ∈ a.addresses → a.storage.IsSteady

theorem ChangedIn.byteAt?_eq (h : memory.ChangedIn within next) (ordered : memory.Ordered)
    (steady : memory.SteadyAt addr) (outside : addr.toNat ∉ within) :
    next.byteAt? addr = memory.byteAt? addr := by
  have ordered' := ordered.of_layout h.layout
  unfold byteAt?
  cases found : memory.find? addr with
  | some a =>
    obtain ⟨ha, inside⟩ := ordered.find?_eq_some_iff.mp found
    obtain ⟨b, hb, changed⟩ := h.areas a ha
    have inside' : addr.toNat ∈ b.addresses :=
      Area.addresses_eq_of_outline changed.outline ▸ inside
    rw [ordered'.find?_eq_some_iff.mpr ⟨hb, inside'⟩]
    exact changed.shown (steady a ha inside) addr inside outside
  | none =>
    have missed := ordered.find?_eq_none_iff.mp found
    have missed' : next.find? addr = none := by
      refine ordered'.find?_eq_none_iff.mpr fun b hb inside => ?_
      obtain ⟨a, ha, outline⟩ := exists_of_layout h.layout.symm hb
      exact missed a ha (Area.addresses_eq_of_outline outline ▸ inside)
    rw [missed']

end GuestMemory

end AtariTos
