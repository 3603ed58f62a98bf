import AtariTos.Proofs.MemoryReads
import AtariTos.Proofs.ServiceEffects

namespace AtariTos

theorem toUInt8_longOfBytes_singleton (byte : UInt8) : (longOfBytes [byte]).toUInt8 = byte := by
  simp [longOfBytes]

namespace Storage

theorem peek_add (storage : Storage) (offset first rest : Nat) :
    storage.peek offset (first + rest) =
      storage.peek offset first ++ storage.peek (offset + first) rest := by
  cases storage with
  | buffer bytes => exact Bytes.extract_add bytes offset first rest
  | device len d =>
    simp only [peek, Device.peek, List.range_add, List.map_append, List.map_map]
    refine congrArg _ (List.map_congr_left fun i _ => ?_)
    exact congrArg d.peekByte (Nat.add_assoc offset first i).symm

end Storage

namespace Area

variable {a : Area} {addr : UInt32} {byte : UInt8} {text : List UInt8}

theorem length_peek {count : Nat} (inside : addr.toNat ∈ a.addresses)
    (fits : addr.toNat + count ≤ a.stop) : (a.peek addr count).length = count := by
  obtain ⟨name, base, rights, storage⟩ := a
  cases storage with
  | buffer bytes => exact Bytes.length_extract (fits_of_buffer inside fits)
  | device len d => simp [peek, Storage.peek, Device.peek]

theorem shown?_eq_some_iff (inside : addr.toNat ∈ a.addresses) :
    a.shown? addr = some byte ↔ a.peek addr 1 = [byte] := by
  obtain ⟨seen, single⟩ := List.length_eq_one_iff.mp (length_peek inside inside.2)
  have same : a.shown? addr = some seen := congrArg List.head? single
  rw [same, single, Option.some.injEq, List.singleton_inj]

theorem ne_last_of_lt (h : addr.toNat + 1 < UInt32.size) : addr ≠ 0xffffffff := by
  rintro rfl
  exact absurd h (by decide)

theorem toNat_succ_of_ne_last (h : addr ≠ 0xffffffff) : (addr + 1).toNat = addr.toNat + 1 := by
  have below : addr.toNat ≠ 4294967295 := fun same => h (UInt32.toNat_inj.mp same)
  have := addr.toNat_lt
  rw [UInt32.toNat_add, UInt32.toNat_one]
  omega

theorem toNat_add_toUInt32 {n : Nat} (h : addr.toNat + n < UInt32.size) :
    (addr + n.toUInt32).toNat = addr.toNat + n := by
  have small : n < UInt32.size := by omega
  rw [UInt32.toNat_add, Nat.toUInt32_eq, UInt32.toNat_ofNat_of_lt' small]
  exact Nat.mod_eq_of_lt h

theorem offset_add {n : Nat} (inside : addr.toNat ∈ a.addresses)
    (h : addr.toNat + n < UInt32.size) : a.offset (addr + n.toUInt32) = a.offset addr + n := by
  have low : a.base.toNat ≤ addr.toNat := inside.1
  rw [offset, offset, toNat_add_toUInt32 h]
  omega

theorem offset_succ (inside : addr.toNat ∈ a.addresses) (h : addr ≠ 0xffffffff) :
    a.offset (addr + 1) = a.offset addr + 1 := by
  have low : a.base.toNat ≤ addr.toNat := inside.1
  rw [offset, offset, toNat_succ_of_ne_last h]
  omega

theorem peek_add {first : Nat} (inside : addr.toNat ∈ a.addresses)
    (h : addr.toNat + first < UInt32.size) (rest : Nat) :
    a.peek addr (first + rest) = a.peek addr first ++ a.peek (addr + first.toUInt32) rest := by
  rw [peek, peek, peek, offset_add inside h, Storage.peek_add]

theorem peek_succ (inside : addr.toNat ∈ a.addresses) (h : addr ≠ 0xffffffff) (count : Nat) :
    a.peek addr (count + 1) = a.peek addr 1 ++ a.peek (addr + 1) count := by
  rw [peek, peek, peek, offset_succ inside h, Nat.add_comm, Storage.peek_add]

/-- Bytes other than zero lie at an address of the area, and a zero behind the last of them. -/
structure HoldsString (a : Area) (addr : UInt32) (text : List UInt8) : Prop where
  inside : addr.toNat ∈ a.addresses
  fits : addr.toNat + (text.length + 1) ≤ a.stop
  reached : addr.toNat + text.length < UInt32.size
  seen : a.peek addr (text.length + 1) = text ++ [0]
  filled : 0 ∉ text

theorem holdsString_nil_iff :
    a.HoldsString addr [] ↔ addr.toNat ∈ a.addresses ∧ a.peek addr 1 = [0] :=
  ⟨fun held => ⟨held.inside, held.seen⟩, fun ⟨inside, seen⟩ =>
    ⟨inside, inside.2, addr.toNat_lt_size, seen, List.not_mem_nil⟩⟩

theorem holdsString_cons_iff :
    a.HoldsString addr (byte :: text) ↔ addr.toNat ∈ a.addresses ∧ a.peek addr 1 = [byte] ∧
      byte ≠ 0 ∧ addr ≠ 0xffffffff ∧ a.HoldsString (addr + 1) text := by
  constructor
  · rintro ⟨inside, fits, reached, seen, filled⟩
    rw [List.length_cons] at fits reached seen
    have inner : addr ≠ 0xffffffff := ne_last_of_lt (by omega)
    have first : (a.peek addr 1).length = 1 := length_peek inside inside.2
    rw [peek_succ inside inner, List.cons_append, ← List.singleton_append] at seen
    obtain ⟨here, rest⟩ := List.append_inj seen first
    rw [List.mem_cons, not_or] at filled
    have next := toNat_succ_of_ne_last inner
    have low := inside.1
    refine ⟨inside, here, Ne.symm filled.1, inner, ⟨?_, ?_, ?_, rest, filled.2⟩⟩
    · exact ⟨by omega, by omega⟩
    · omega
    · omega
  · rintro ⟨inside, here, nonzero, inner, ⟨_, fits, reached, rest, filled⟩⟩
    rw [toNat_succ_of_ne_last inner] at fits reached
    refine ⟨inside, ?_, ?_, ?_, List.not_mem_cons_of_ne_of_not_mem (Ne.symm nonzero) filled⟩
    · rw [List.length_cons]
      omega
    · rw [List.length_cons]
      omega
    · rw [List.length_cons, peek_succ inside inner, here, rest]
      rfl

end Area

namespace GuestMemory

variable {memory : GuestMemory} {area : Area} {addr cursor : UInt32} {mode : Privilege}
  {text before : List UInt8} {limit : Nat}

theorem scanString_of_holdsString (held : area.HoldsString cursor text) (limit : Nat)
    (before : List UInt8) :
    scanString area limit cursor before =
      .ok (if text.length < limit then some (before.reverse ++ text) else none) := by
  induction text generalizing cursor limit before with
  | nil =>
    cases limit with
    | zero => rfl
    | succ limit =>
      obtain ⟨inside, seen⟩ := Area.holdsString_nil_iff.mp held
      rw [scanString, seen, toUInt8_longOfBytes_singleton]
      simp [Area.contains_iff.mpr inside]
  | cons byte rest ih =>
    cases limit with
    | zero => rfl
    | succ limit =>
      obtain ⟨inside, seen, nonzero, inner, held'⟩ := Area.holdsString_cons_iff.mp held
      rw [scanString, seen, toUInt8_longOfBytes_singleton]
      simp [Area.contains_iff.mpr inside, nonzero, inner, ih held']

theorem exists_of_scanString {found : List UInt8}
    (h : scanString area limit cursor before = .ok (some found)) :
    ∃ text, area.HoldsString cursor text ∧ text.length < limit ∧
      found = before.reverse ++ text := by
  induction limit generalizing cursor before with
  | zero => cases h
  | succ limit ih =>
    rw [scanString] at h
    split at h
    · cases h
    next contained =>
      have inside : cursor.toNat ∈ area.addresses :=
        Area.contains_iff.mp (by simpa using contained)
      obtain ⟨byte, seen⟩ : ∃ byte, area.peek cursor 1 = [byte] :=
        List.length_eq_one_iff.mp (Area.length_peek inside inside.2)
      rw [seen, toUInt8_longOfBytes_singleton] at h
      dsimp only at h
      split at h
      next zero =>
        cases h
        subst zero
        refine ⟨[], Area.holdsString_nil_iff.mpr ⟨inside, seen⟩, Nat.succ_pos limit, ?_⟩
        rw [List.append_nil]
      next nonzero =>
        split at h
        · cases h
        next inner =>
          obtain ⟨text, held, short, rfl⟩ := ih h
          refine ⟨byte :: text, ?_, Nat.succ_lt_succ short, ?_⟩
          · exact Area.holdsString_cons_iff.mpr ⟨inside, seen, nonzero, inner, held⟩
          · rw [List.reverse_cons, List.append_assoc, List.singleton_append]

/-- A string lies at an address, with its end, in an area that may be looked at. -/
def HoldsString (memory : GuestMemory) (addr : UInt32) (text : List UInt8) (mode : Privilege) :
    Prop :=
  ∃ area, memory.locate addr 1 .peek mode = .ok area ∧ area.HoldsString addr text

theorem peekString_of_holdsString (held : memory.HoldsString addr text mode) (limit : Nat) :
    memory.peekString addr limit mode = .ok (if text.length < limit then some text else none) := by
  obtain ⟨area, located, held⟩ := held
  rw [peekString, located]
  exact scanString_of_holdsString held limit []

theorem peekString_eq_some_iff :
    memory.peekString addr limit mode = .ok (some text) ↔
      memory.HoldsString addr text mode ∧ text.length < limit := by
  constructor
  · intro h
    unfold peekString at h
    split at h
    · cases h
    next area located =>
      obtain ⟨found, held, short, rfl⟩ := exists_of_scanString h
      exact ⟨⟨area, located, held⟩, short⟩
  · rintro ⟨held, short⟩
    rw [peekString_of_holdsString held, if_pos short]

theorem Ordered.holdsString_of_peekBytes (ordered : memory.Ordered)
    (seen : memory.peekBytes addr (text.length + 1) mode = .ok (text ++ [0])) (filled : 0 ∉ text)
    (reached : addr.toNat + text.length < UInt32.size) : memory.HoldsString addr text mode := by
  unfold peekBytes at seen
  split at seen
  · cases seen
  next area located =>
    obtain ⟨member, inside, fits, allowed⟩ := ordered.locate_eq_ok_iff.mp located
    have first : memory.locate addr 1 .peek mode = .ok area :=
      ordered.locate_eq_ok_iff.mpr ⟨member, inside, inside.2, allowed⟩
    exact ⟨area, first, inside, fits, reached, Except.ok.inj seen, filled⟩

end GuestMemory

namespace Service

variable {s : System} {addr : UInt32} {text : List UInt8}

theorem run_stringAt (held : s.memory.HoldsString addr text s.registers.privilege) (limit : Nat) :
    (stringAt addr limit).run s = .ok (if text.length < limit then some text else none) s := by
  change (orRangeError (s.memory.peekString addr limit s.registers.privilege)).run s = _
  rw [GuestMemory.peekString_of_holdsString held]
  rfl

theorem run_pathAt (held : s.memory.HoldsString addr text s.registers.privilege) :
    (pathAt addr).run s =
      if text.length < pathMax then .ok text s else .error (.status .pathOverflow) s := by
  rw [pathAt, run_bind_of_ok (run_stringAt held pathMax)]
  by_cases short : text.length < pathMax
  · rw [if_pos short, if_pos short]
    rfl
  · rw [if_neg short, if_neg short]
    rfl

theorem holdsString_of_stringAt {t : System} {limit : Nat}
    (ran : (stringAt addr limit).run s = .ok (some text) t) :
    s.memory.HoldsString addr text s.registers.privilege := by
  change (orRangeError (s.memory.peekString addr limit s.registers.privilege)).run s = _ at ran
  cases found : s.memory.peekString addr limit s.registers.privilege with
  | error fault =>
    rw [found] at ran
    cases ran
  | ok string =>
    rw [found] at ran
    cases ran
    exact (GuestMemory.peekString_eq_some_iff.mp found).1

theorem holdsString_of_pathAt {t : System} (ran : (pathAt addr).run s = .ok text t) :
    s.memory.HoldsString addr text s.registers.privilege := by
  obtain ⟨found, u, read, ran⟩ := ok_of_bind ran
  cases found with
  | none => cases ran
  | some path =>
    cases ran
    exact holdsString_of_stringAt read

end Service

end AtariTos
