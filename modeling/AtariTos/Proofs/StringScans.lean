import AtariTos.Proofs.AreaChanges
import AtariTos.Proofs.GuestStrings

namespace AtariTos

theorem Storage.getElem?_peek (storage : Storage) (offset : Nat) {count i : Nat} (h : i < count) :
    (storage.peek offset count)[i]? = storage.shown? (offset + i) := by
  cases storage with
  | buffer bytes =>
    rw [shown?_buffer, peek, Array.getElem?_toList, Array.getElem?_extract]
    split
    · rfl
    next beyond => rw [Array.getElem?_eq_none (by omega)]
  | device len d =>
    rw [shown?_device, peek, Device.peek, List.getElem?_map, List.getElem?_range h]
    rfl

namespace Area

variable {a : Area} {addr : UInt32} {i count : Nat}

/-- How many bytes there are from an address to the end of an area, or to the last address of
all. -/
def reach (a : Area) (addr : UInt32) : Nat :=
  min a.stop UInt32.size - addr.toNat

theorem mem_addresses_of_lt_reach (inside : addr.toNat ∈ a.addresses) (h : i < a.reach addr) :
    addr.toNat + i < UInt32.size ∧ (addr + i.toUInt32).toNat ∈ a.addresses := by
  have low := inside.1
  have bound : addr.toNat + i < min a.stop UInt32.size := by
    rw [reach] at h
    omega
  have small := Nat.lt_of_lt_of_le bound (Nat.min_le_right _ _)
  refine ⟨small, ?_⟩
  rw [toNat_add_toUInt32 small]
  exact ⟨by omega, Nat.lt_of_lt_of_le bound (Nat.min_le_left _ _)⟩

theorem getElem?_peek_reach (inside : addr.toNat ∈ a.addresses) (h : i < count)
    (within : i < a.reach addr) : (a.peek addr count)[i]? = a.shown? (addr + i.toUInt32) := by
  obtain ⟨small, _⟩ := mem_addresses_of_lt_reach inside within
  rw [peek, Storage.getElem?_peek _ _ h, shown?, offset_add inside small]

theorem reach_succ (inside : addr.toNat ∈ a.addresses) (h : addr ≠ 0xffffffff) :
    a.reach addr = a.reach (addr + 1) + 1 := by
  have last := inside.2
  have next := toNat_succ_of_ne_last h
  have bound := (addr + 1).toNat_lt_size
  rw [reach, reach, next]
  omega

theorem fits_of_le_reach (inside : addr.toNat ∈ a.addresses) (h : count ≤ a.reach addr) :
    addr.toNat + count ≤ a.stop := by
  have := inside.2
  rw [reach] at h
  omega

theorem notMem_peek_iff (inside : addr.toNat ∈ a.addresses) (h : count ≤ a.reach addr) :
    0 ∉ a.peek addr count ↔ ∀ i < count, a.shown? (addr + i.toUInt32) ≠ some 0 := by
  have length := length_peek inside (fits_of_le_reach inside h)
  rw [List.mem_iff_getElem?, not_exists]
  refine ⟨fun missing i low => ?_, fun missing i found => ?_⟩
  · rw [← getElem?_peek_reach inside low (by omega)]
    exact missing i
  · have low : i < count := by
      by_contra beyond
      rw [List.getElem?_eq_none (by omega)] at found
      cases found
    exact missing i low (by rwa [← getElem?_peek_reach inside low (by omega)])

theorem ne_zero_of_notMem_peek {byte : UInt8} (inside : addr.toNat ∈ a.addresses)
    (seen : a.peek addr 1 = [byte]) (positive : 0 < count)
    (filled : 0 ∉ a.peek addr (min count (a.reach addr))) : byte ≠ 0 := by
  rintro rfl
  have last := inside.2
  have bound := addr.toNat_lt_size
  have within : 0 < min count (a.reach addr) := by
    rw [reach]
    omega
  have first := (notMem_peek_iff inside (Nat.min_le_right _ _)).mp filled 0 within
  have here : addr + (0 : Nat).toUInt32 = addr := UInt32.add_zero addr
  rw [here] at first
  exact first ((shown?_eq_some_iff inside).mpr seen)

theorem notMem_peek_succ (inside : addr.toNat ∈ a.addresses) (h : addr ≠ 0xffffffff)
    (filled : 0 ∉ a.peek addr (min (count + 1) (a.reach addr))) :
    0 ∉ a.peek (addr + 1) (min count (a.reach (addr + 1))) := by
  rw [reach_succ inside h, Nat.succ_min_succ, peek_succ inside h, List.mem_append,
    not_or] at filled
  exact filled.2

theorem holdsString_of_first (inside : addr.toNat ∈ a.addresses) (within : i < a.reach addr)
    (zero : a.shown? (addr + i.toUInt32) = some 0)
    (first : ∀ j < i, a.shown? (addr + j.toUInt32) ≠ some 0) :
    a.HoldsString addr (a.peek addr i) := by
  have fits := fits_of_le_reach inside within
  have length : (a.peek addr i).length = i := length_peek inside (by omega)
  obtain ⟨small, inside'⟩ := mem_addresses_of_lt_reach inside within
  refine ⟨inside, by rwa [length], by rwa [length], ?_, ?_⟩
  · rw [length, peek_add inside small, (shown?_eq_some_iff inside').mp zero]
  · exact (notMem_peek_iff inside (by omega)).mpr first

end Area

namespace GuestMemory

variable {memory : GuestMemory} {area : Area} {addr cursor : UInt32} {mode : Privilege}
  {limit reach : Nat} {outcome : Except Fault (Option (List UInt8))}

theorem scanString_of_stop (ended : cursor.toNat = area.stop) (before : List UInt8) :
    scanString area (limit + 1) cursor before =
      .error (.unmapped (min area.stop (UInt32.size - 1)).toUInt32) := by
  have bound := cursor.toNat_lt_size
  have outside : area.contains cursor = false := by
    rw [← Bool.not_eq_true, Area.contains_iff]
    intro inside
    have last := inside.2
    omega
  have exact : min area.stop (UInt32.size - 1) = cursor.toNat := by omega
  rw [scanString, outside, exact, Nat.toUInt32_eq, UInt32.ofNat_toNat]
  rfl

/-- Without a zero byte the scan ends with nothing if the limit comes first. It does not if the
limit is reached behind the last address of all, to which no cursor can move on. -/
theorem scanString_of_unended (low : area.base.toNat ≤ cursor.toNat)
    (high : cursor.toNat ≤ area.stop)
    (filled : 0 ∉ area.peek cursor (min limit (area.reach cursor))) (before : List UInt8) :
    scanString area limit cursor before =
      if limit ≤ area.reach cursor ∧ cursor.toNat + limit < UInt32.size then .ok none
      else .error (.unmapped (min area.stop (UInt32.size - 1)).toUInt32) := by
  have size : UInt32.size = 4294967296 := rfl
  induction limit generalizing cursor before with
  | zero =>
    rw [if_pos ⟨Nat.zero_le _, cursor.toNat_lt_size⟩]
    rfl
  | succ limit ih =>
    have bound := cursor.toNat_lt_size
    by_cases inside : cursor.toNat ∈ area.addresses
    · have last := inside.2
      obtain ⟨byte, seen⟩ := List.length_eq_one_iff.mp (Area.length_peek inside last)
      have nonzero : byte ≠ 0 :=
        Area.ne_zero_of_notMem_peek inside seen (Nat.succ_pos limit) filled
      rw [scanString, Area.contains_iff.mpr inside, seen, toUInt8_longOfBytes_singleton]
      simp only [Bool.not_true, Bool.false_eq_true, if_false, nonzero]
      by_cases top : cursor = 0xffffffff
      · subst top
        have here : (0xffffffff : UInt32).toNat = 4294967295 := rfl
        have exact : min area.stop (UInt32.size - 1) = 4294967295 := by omega
        rw [if_pos rfl, if_neg (by omega), exact]
        rfl
      · have next := Area.toNat_succ_of_ne_last top
        have shorter := Area.reach_succ inside top
        have same : (limit ≤ area.reach (cursor + 1) ∧
            (cursor + 1).toNat + limit < UInt32.size) ↔
            limit + 1 ≤ area.reach cursor ∧ cursor.toNat + (limit + 1) < UInt32.size := by
          omega
        rw [if_neg top, ih (by omega) (by omega) (Area.notMem_peek_succ inside top filled)]
        simp only [same]
    · have ended : cursor.toNat = area.stop := by
        by_contra apart
        exact inside ⟨low, by omega⟩
      have none : ¬(limit + 1 ≤ area.reach cursor ∧
          cursor.toNat + (limit + 1) < UInt32.size) := by
        rw [Area.reach]
        omega
      rw [if_neg none, scanString_of_stop ended]

/-- What the search for the end of a string is to find, where `reach` bytes are left in its area:
the bytes before the first zero, nothing if there is no zero within the limit, and otherwise the end
of the area. -/
structure FindsString (memory : GuestMemory) (addr : UInt32) (limit reach : Nat)
    (outcome : Except Fault (Option (List UInt8))) : Prop where
  ended : ∀ i < min limit reach, memory.byteAt? (addr + i.toUInt32) = some 0 →
    (∀ j < i, memory.byteAt? (addr + j.toUInt32) ≠ some 0) →
    ∃ text, outcome = .ok (some text) ∧ text.length = i ∧
      ∀ j < i, text[j]? = memory.byteAt? (addr + j.toUInt32)
  unended : limit ≤ reach → (∀ i < limit, memory.byteAt? (addr + i.toUInt32) ≠ some 0) →
    outcome = .ok none
  unmapped : reach < limit → (∀ i < reach, memory.byteAt? (addr + i.toUInt32) ≠ some 0) →
    ∃ cursor, outcome = .error (.unmapped cursor)

/-- The limit is reached right behind the last address of all, and no zero byte before it. -/
structure EndsAtTop (memory : GuestMemory) (area : Area) (addr : UInt32) (limit : Nat) : Prop where
  top : UInt32.size ≤ area.stop
  exact : addr.toNat + limit = UInt32.size
  filled : ∀ i < limit, memory.byteAt? (addr + i.toUInt32) ≠ some 0

theorem Ordered.byteAt?_reach (ordered : memory.Ordered) (member : area ∈ memory.areas)
    (inside : addr.toNat ∈ area.addresses) {i : Nat} (within : i < area.reach addr) :
    memory.byteAt? (addr + i.toUInt32) = area.shown? (addr + i.toUInt32) :=
  ordered.byteAt?_of_mem member (Area.mem_addresses_of_lt_reach inside within).2

theorem Ordered.notMem_peek_iff (ordered : memory.Ordered) (member : area ∈ memory.areas)
    (inside : addr.toNat ∈ area.addresses) {count : Nat} (within : count ≤ area.reach addr) :
    0 ∉ area.peek addr count ↔ ∀ i < count, memory.byteAt? (addr + i.toUInt32) ≠ some 0 := by
  rw [Area.notMem_peek_iff inside within]
  refine forall₂_congr fun i low => ?_
  rw [ordered.byteAt?_reach member inside (by omega)]

theorem Ordered.peekString_eq (ordered : memory.Ordered) (member : area ∈ memory.areas)
    (inside : addr.toNat ∈ area.addresses) (allowed : area.rights.mayPeek mode = true)
    (limit : Nat) : memory.peekString addr limit mode = scanString area limit addr [] := by
  have located : memory.locate addr 1 .peek mode = .ok area :=
    ordered.locate_eq_ok_iff.mpr ⟨member, inside, inside.2, allowed⟩
  rw [peekString, located]

theorem Ordered.peekString_of_unended (ordered : memory.Ordered) (member : area ∈ memory.areas)
    (inside : addr.toNat ∈ area.addresses) (allowed : area.rights.mayPeek mode = true)
    (filled : ∀ i < min limit (area.reach addr), memory.byteAt? (addr + i.toUInt32) ≠ some 0) :
    memory.peekString addr limit mode =
      if limit ≤ area.reach addr ∧ addr.toNat + limit < UInt32.size then .ok none
      else .error (.unmapped (min area.stop (UInt32.size - 1)).toUInt32) := by
  have filled' := (ordered.notMem_peek_iff member inside (Nat.min_le_right _ _)).mpr filled
  rw [ordered.peekString_eq member inside allowed]
  exact scanString_of_unended inside.1 (Nat.le_of_lt inside.2) filled' []

theorem Ordered.peekString_of_endsAtTop (ordered : memory.Ordered) (member : area ∈ memory.areas)
    (inside : addr.toNat ∈ area.addresses) (allowed : area.rights.mayPeek mode = true)
    (ends : memory.EndsAtTop area addr limit) :
    memory.peekString addr limit mode = .error (.unmapped 0xffffffff) := by
  have size : UInt32.size = 4294967296 := rfl
  have top := ends.top
  have exact := ends.exact
  have last : min area.stop (UInt32.size - 1) = 4294967295 := by omega
  rw [ordered.peekString_of_unended member inside allowed fun i low => ends.filled i (by omega),
    if_neg (by omega), last]
  rfl

theorem Ordered.findsString_peekString (ordered : memory.Ordered) (member : area ∈ memory.areas)
    (inside : addr.toNat ∈ area.addresses) (allowed : area.rights.mayPeek mode = true)
    (below : ¬memory.EndsAtTop area addr limit) :
    memory.FindsString addr limit (area.reach addr) (memory.peekString addr limit mode) := by
  refine ⟨fun i low zero first => ?_, fun short filled => ?_, fun long filled => ?_⟩
  · have within : i < area.reach addr := by omega
    have seen {j : Nat} (h : j ≤ i) :
        memory.byteAt? (addr + j.toUInt32) = area.shown? (addr + j.toUInt32) :=
      ordered.byteAt?_reach member inside (Nat.lt_of_le_of_lt h within)
    rw [seen (Nat.le_refl i)] at zero
    have first' (j : Nat) (h : j < i) : area.shown? (addr + j.toUInt32) ≠ some 0 := by
      rw [← seen (Nat.le_of_lt h)]
      exact first j h
    have held := Area.holdsString_of_first inside within zero first'
    have length : (area.peek addr i).length = i :=
      Area.length_peek inside (Area.fits_of_le_reach inside (Nat.le_of_lt within))
    refine ⟨area.peek addr i, ?_, length, fun j h => ?_⟩
    · rw [ordered.peekString_eq member inside allowed, scanString_of_holdsString held, length,
        if_pos (by omega)]
      rfl
    · rw [seen (Nat.le_of_lt h), Area.getElem?_peek_reach inside h (by omega)]
  · have bound : addr.toNat + limit < UInt32.size := by
      have low := addr.toNat_lt_size
      rw [Area.reach] at short
      rcases Nat.lt_or_ge (addr.toNat + limit) UInt32.size with before | behind
      · exact before
      · exact absurd ⟨by omega, by omega, filled⟩ below
    rw [ordered.peekString_of_unended member inside allowed fun i low => filled i (by omega),
      if_pos ⟨short, bound⟩]
  · rw [ordered.peekString_of_unended member inside allowed fun i low => filled i (by omega),
      if_neg (by omega)]
    exact ⟨_, rfl⟩

/-- Whatever has been done to an empty table of areas, the search for the end of a string in an area
that may be looked at finds what it is to find, except when the limit is reached right behind the
last address of all: there it fails, as if the limit lay beyond the end of the area. -/
theorem findsString_iff (changes : List TableChange) {area : Area} {addr : UInt32}
    {mode : Privilege} (limit : Nat) (member : area ∈ (empty.changeAll changes).areas)
    (inside : addr.toNat ∈ area.addresses) (allowed : area.rights.mayPeek mode = true) :
    let memory := empty.changeAll changes
    (memory.FindsString addr limit (area.reach addr) (memory.peekString addr limit mode) ↔
      ¬memory.EndsAtTop area addr limit) ∧
    (memory.EndsAtTop area addr limit →
      memory.peekString addr limit mode = .error (.unmapped 0xffffffff)) := by
  intro memory
  have ordered : memory.Ordered := ordered_empty.changeAll changes
  refine ⟨⟨fun finds ends => ?_, ordered.findsString_peekString member inside allowed⟩,
    ordered.peekString_of_endsAtTop member inside allowed⟩
  have failed := ordered.peekString_of_endsAtTop member inside allowed ends
  have short : limit ≤ area.reach addr := by
    have top := ends.top
    have exact := ends.exact
    rw [Area.reach]
    omega
  rw [finds.unended short ends.filled] at failed
  cases failed

/-- The last two bytes of the address space, neither of them zero. -/
def lastTwo : Area :=
  .ofBuffer "last" 0xfffffffe #[0x41, 0x42] .readOnly

theorem findsString_lastTwo :
    let memory := empty.changeAll [.add lastTwo]
    lastTwo ∈ memory.areas ∧ (0xfffffffe : UInt32).toNat ∈ lastTwo.addresses ∧
      lastTwo.rights.mayPeek .user = true ∧
      memory.FindsString 0xfffffffe 1 2 (memory.peekString 0xfffffffe 1 .user) ∧
      memory.FindsString 0xfffffffe 3 2 (memory.peekString 0xfffffffe 3 .user) := by
  intro memory
  have member : lastTwo ∈ memory.areas := List.mem_singleton_self lastTwo
  have inside : (0xfffffffe : UInt32).toNat ∈ lastTwo.addresses := ⟨by decide, by decide⟩
  have allowed : lastTwo.rights.mayPeek .user = true := rfl
  refine ⟨member, inside, allowed, ?_, ?_⟩
  · exact (findsString_iff [.add lastTwo] 1 member inside allowed).1.mpr fun ends =>
      absurd ends.exact (by decide)
  · exact (findsString_iff [.add lastTwo] 3 member inside allowed).1.mpr fun ends =>
      absurd ends.exact (by decide)

/-- Two bytes are looked at, both lie in the area, and neither is zero: there is nothing to find,
yet the search fails. -/
theorem not_findsString_lastTwo :
    let memory := empty.changeAll [.add lastTwo]
    lastTwo ∈ memory.areas ∧ (0xfffffffe : UInt32).toNat ∈ lastTwo.addresses ∧
      lastTwo.rights.mayPeek .user = true ∧ lastTwo.reach 0xfffffffe = 2 ∧
      memory.peekString 0xfffffffe 2 .user = .error (.unmapped 0xffffffff) ∧
      ¬memory.FindsString 0xfffffffe 2 2 (memory.peekString 0xfffffffe 2 .user) := by
  intro memory
  have failed : memory.peekString 0xfffffffe 2 .user = .error (.unmapped 0xffffffff) := rfl
  refine ⟨List.mem_singleton_self lastTwo, ⟨by decide, by decide⟩, rfl, by decide, failed,
    fun finds => ?_⟩
  have nothing := finds.unended (Nat.le_refl 2) (by decide)
  rw [failed] at nothing
  cases nothing

end GuestMemory

end AtariTos
