import AtariTos.Proofs.FirstFit

namespace AtariTos

/-- The length that a call asks for. -/
def HeapCall.len? : HeapCall → Option UInt32
  | .allocate len => some len
  | .free _ => none
  | .shrink _ len => some len

namespace Heap

/-- The base of the block that a call hands out, if it does. -/
def handsOut? (heap : Heap) : HeapCall → Option UInt32
  | .allocate len =>
    let base := (heap.allocate len).1
    if base = 0 then none else some base
  | _ => none

def handedOut (heap : Heap) : List HeapCall → List UInt32
  | [] => []
  | c :: rest => (heap.handsOut? c).toList ++ (heap.call c).handedOut rest

/-- Whenever calls put a block directly behind another one, the length that this one has then is a
multiple of a unit. -/
def PutsBehindMultiples (heap : Heap) (unit : Nat) (calls : List HeapCall) : Prop :=
  ∀ before len after, calls = before ++ .allocate len :: after →
    ∀ b ∈ (heap.callAll before).blocks,
      b.stop = ((heap.callAll before).allocate len).1.toNat → unit ∣ b.len.toNat

variable {heap : Heap} {top start unit : Nat} {blocks placed : List Block} {base len : UInt32}
  {b : Block} {c : HeapCall} {calls : List HeapCall}

theorem start_of_place (small : top < UInt32.size)
    (h : place top len start blocks = some (base, placed)) :
    base.toNat = start ∨ ∃ b ∈ blocks, b.stop = base.toNat := by
  induction blocks generalizing start placed with
  | nil =>
    rw [place] at h
    split at h
    next fits =>
      cases h
      exact .inl (UInt32.toNat_ofNat_of_lt' (by omega))
    · cases h
  | cons b rest ih =>
    rw [place] at h
    split at h
    next fits =>
      cases h
      have bounded := b.base.toNat_lt_size
      exact .inl (UInt32.toNat_ofNat_of_lt' (by omega))
    · obtain ⟨⟨_, placed⟩, found, same⟩ := Option.map_eq_some_iff.mp h
      cases same
      rcases ih found with behind | ⟨c, hc, behind⟩
      · exact .inr ⟨b, List.mem_cons_self, behind.symm⟩
      · exact .inr ⟨c, List.mem_cons_of_mem _ hc, behind⟩

theorem Tidy.start_of_allocate (tidy : heap.Tidy) (some : (heap.allocate len).1 ≠ 0) :
    heap.span.floor < heap.span.top ∧ (heap.allocate len).1 = heap.span.floor ∨
      ∃ b ∈ heap.blocks, b.stop = (heap.allocate len).1.toNat := by
  have asked : len ≠ 0 := by
    rintro rfl
    exact some rfl
  cases found : place heap.span.top.toNat len heap.span.floor.toNat heap.blocks with
  | none =>
    rw [Heap.allocate, if_neg asked, found] at some
    exact absurd rfl some
  | some result =>
    obtain ⟨base, placed⟩ := result
    rw [Heap.allocate, if_neg asked, found]
    rcases start_of_place heap.span.top.toNat_lt_size found with first | behind
    · have fits := (tidy.isLeast_of_place found).1
      have below := (fits base.toNat ⟨le_rfl, Nat.le_add_right _ _⟩).below
      rw [first] at below
      exact .inl ⟨UInt32.lt_iff_toNat_lt.mpr below, UInt32.toNat_inj.mp first⟩
    · exact .inr behind

theorem Tidy.exists_base_of_call (tidy : heap.Tidy) (hb : b ∈ (heap.call c).blocks) :
    (∃ a ∈ heap.blocks, a.base = b.base ∧ (a.len = b.len ∨ c.len? = some b.len)) ∨
      c = .allocate b.len ∧ (heap.allocate b.len).1 = b.base := by
  have kept (hb : b ∈ heap.blocks) :
      ∃ a ∈ heap.blocks, a.base = b.base ∧ (a.len = b.len ∨ c.len? = some b.len) :=
    ⟨b, hb, rfl, .inl rfl⟩
  cases c with
  | allocate len =>
    by_cases asked : len = 0
    · rw [Heap.call, Heap.allocate, if_pos asked] at hb
      exact .inl (kept hb)
    rcases tidy.allocate_cases asked with ⟨_, full⟩ | ⟨base, before, after, _, split, room⟩
    · rw [Heap.call, full] at hb
      exact .inl (kept hb)
    · rw [Heap.call, room] at hb
      rcases List.mem_append.mp hb with ahead | hb
      · exact .inl (kept (split ▸ List.mem_append_left _ ahead))
      · rcases List.mem_cons.mp hb with rfl | behind
        · exact .inr ⟨rfl, congrArg Prod.fst room⟩
        · exact .inl (kept (split ▸ List.mem_append_right _ behind))
  | free base =>
    rw [Heap.call, Heap.tryFree] at hb
    cases found : heap.block? base with
    | none =>
      rw [found] at hb
      exact .inl (kept hb)
    | some freed =>
      rw [found] at hb
      exact .inl (kept (List.mem_filter.mp hb).1)
  | shrink base len =>
    rw [Heap.call, Heap.tryShrink_eq] at hb
    cases shrunk : heap.shrink base len with
    | error cause =>
      rw [shrunk] at hb
      exact .inl (kept hb)
    | ok next =>
      rw [shrunk] at hb
      obtain ⟨before, a, after, split, rfl, rfl⟩ := tidy.shrink_eq_ok shrunk
      have hb : b ∈ before ++ (if len = 0 then [] else [⟨a.base, len⟩]) ++ after := hb
      rcases List.mem_append.mp hb with hb | behind
      · rcases List.mem_append.mp hb with ahead | cut
        · exact .inl (kept (split ▸ List.mem_append_left _ ahead))
        · split at cut
          · cases cut
          · cases List.mem_singleton.mp cut
            exact .inl ⟨a, split ▸ List.mem_append_right _ List.mem_cons_self, rfl, .inr rfl⟩
      · exact .inl (kept (split ▸ List.mem_append_right _ (List.mem_cons_of_mem _ behind)))

/-- Where all blocks start on a boundary, a new one does exactly if those that it directly follows
end there. -/
theorem Tidy.dvd_allocate_iff (tidy : heap.Tidy)
    (first : heap.span.floor < heap.span.top → unit ∣ heap.span.floor.toNat)
    (aligned : ∀ b ∈ heap.blocks, unit ∣ b.base.toNat) :
    unit ∣ (heap.allocate len).1.toNat ↔
      ∀ b ∈ heap.blocks, b.stop = (heap.allocate len).1.toNat → unit ∣ b.len.toNat := by
  have extent (b : Block) : b.stop = b.base.toNat + b.len.toNat := rfl
  constructor
  · intro divides b hb behind
    rw [← behind, extent] at divides
    exact (Nat.dvd_add_right (aligned b hb)).mp divides
  · intro multiples
    by_cases refused : (heap.allocate len).1 = 0
    · rw [refused]
      exact Nat.dvd_zero unit
    · rcases tidy.start_of_allocate refused with ⟨room, here⟩ | ⟨b, hb, behind⟩
      · rw [here]
        exact first room
      · rw [← behind, extent]
        exact Nat.dvd_add (aligned b hb) (multiples b hb behind)

theorem Tidy.aligned_call (tidy : heap.Tidy) (aligned : ∀ b ∈ heap.blocks, unit ∣ b.base.toNat)
    (new : ∀ len, c = .allocate len → unit ∣ (heap.allocate len).1.toNat) :
    ∀ b ∈ (heap.call c).blocks, unit ∣ b.base.toNat := by
  intro b hb
  rcases tidy.exists_base_of_call hb with ⟨a, ha, same, _⟩ | ⟨asked, here⟩
  · rw [← same]
    exact aligned a ha
  · rw [← here]
    exact new b.len asked

theorem Tidy.multiples_call (tidy : heap.Tidy) (multiples : ∀ b ∈ heap.blocks, unit ∣ b.len.toNat)
    (asked : ∀ len, c.len? = some len → unit ∣ len.toNat) :
    ∀ b ∈ (heap.call c).blocks, unit ∣ b.len.toNat := by
  intro b hb
  rcases tidy.exists_base_of_call hb with ⟨a, ha, _, same | cut⟩ | ⟨rfl, _⟩
  · rw [← same]
    exact multiples a ha
  · exact asked b.len cut
  · exact asked b.len rfl

theorem handsOut?_eq_some_iff :
    heap.handsOut? c = some base ↔
      base ≠ 0 ∧ ∃ len, c = .allocate len ∧ (heap.allocate len).1 = base := by
  cases c with
  | allocate len =>
    rw [handsOut?]
    split
    next refused =>
      refine iff_of_false (Option.some_ne_none base).symm ?_
      rintro ⟨some, _, ⟨rfl⟩, rfl⟩
      exact some refused
    next some =>
      constructor
      · rintro ⟨rfl⟩
        exact ⟨some, len, rfl, rfl⟩
      · rintro ⟨_, _, ⟨rfl⟩, rfl⟩
        rfl
  | free base => simp [handsOut?]
  | shrink base len => simp [handsOut?]

theorem handedOut_append (heap : Heap) (calls later : List HeapCall) :
    heap.handedOut (calls ++ later) =
      heap.handedOut calls ++ (heap.callAll calls).handedOut later := by
  induction calls generalizing heap with
  | nil => rfl
  | cons c rest ih =>
    rw [List.cons_append, handedOut, handedOut, ih, List.append_assoc]
    rfl

theorem putsBehindMultiples_nil : heap.PutsBehindMultiples unit [] := by
  intro before len after split
  exact absurd split (List.append_ne_nil_of_right_ne_nil _ (List.cons_ne_nil _ _)).symm

theorem putsBehindMultiples_cons_iff :
    heap.PutsBehindMultiples unit (c :: calls) ↔
      (∀ len, c = .allocate len → ∀ b ∈ heap.blocks,
        b.stop = (heap.allocate len).1.toNat → unit ∣ b.len.toNat) ∧
      (heap.call c).PutsBehindMultiples unit calls := by
  constructor
  · intro multiples
    constructor
    · rintro len rfl
      exact multiples [] len calls rfl
    · rintro before len after rfl
      exact multiples (c :: before) len after rfl
  · rintro ⟨now, later⟩ before len after split
    cases before with
    | nil =>
      obtain ⟨rfl, rfl⟩ := List.cons.inj split
      exact now len rfl
    | cons c' before =>
      obtain ⟨rfl, rfl⟩ := List.cons.inj split
      exact later before len after rfl

/-- An answer of zero is a multiple of everything, so that refusals make no difference. -/
theorem dvd_handsOut?_iff :
    (∀ base ∈ heap.handsOut? c, unit ∣ base.toNat) ↔
      ∀ len, c = .allocate len → unit ∣ (heap.allocate len).1.toNat := by
  constructor
  · rintro divides len rfl
    by_cases refused : (heap.allocate len).1 = 0
    · rw [refused]
      exact Nat.dvd_zero unit
    · exact divides _ (handsOut?_eq_some_iff.mpr ⟨refused, len, rfl, rfl⟩)
  · intro divides base handed
    obtain ⟨_, len, asked, rfl⟩ := handsOut?_eq_some_iff.mp handed
    exact divides len asked

/-- The blocks that are handed out start on a boundary exactly as long as the blocks that they
directly follow have lengths that are multiples of it. -/
theorem Tidy.aligned_handedOut_iff (tidy : heap.Tidy)
    (first : heap.span.floor < heap.span.top → unit ∣ heap.span.floor.toNat)
    (aligned : ∀ b ∈ heap.blocks, unit ∣ b.base.toNat) (calls : List HeapCall) :
    (∀ base ∈ heap.handedOut calls, unit ∣ base.toNat) ↔ heap.PutsBehindMultiples unit calls := by
  induction calls generalizing heap with
  | nil =>
    exact iff_of_true (fun base member => absurd member List.not_mem_nil) putsBehindMultiples_nil
  | cons c rest ih =>
    -- Aligned answers keep all blocks aligned, and then the next answer depends on lengths alone.
    have now : (∀ base ∈ heap.handsOut? c, unit ∣ base.toNat) ↔
        ∀ len, c = .allocate len → ∀ b ∈ heap.blocks,
          b.stop = (heap.allocate len).1.toNat → unit ∣ b.len.toNat := by
      simp only [dvd_handsOut?_iff, tidy.dvd_allocate_iff first aligned]
    have later (new : ∀ base ∈ heap.handsOut? c, unit ∣ base.toNat) :=
      ih (tidy.call c) (by rwa [heap.span_call c])
        (tidy.aligned_call aligned (dvd_handsOut?_iff.mp new))
    simp only [handedOut, List.mem_append, or_imp, forall_and, Option.mem_toList]
    rw [putsBehindMultiples_cons_iff, ← now]
    exact and_congr_right later

theorem Tidy.putsBehindMultiples (tidy : heap.Tidy)
    (multiples : ∀ b ∈ heap.blocks, unit ∣ b.len.toNat)
    (asked : ∀ c ∈ calls, ∀ len, c.len? = some len → unit ∣ len.toNat) :
    heap.PutsBehindMultiples unit calls := by
  induction calls generalizing heap with
  | nil => exact putsBehindMultiples_nil
  | cons c rest ih =>
    obtain ⟨now, later⟩ := List.forall_mem_cons.mp asked
    refine putsBehindMultiples_cons_iff.mpr ⟨fun len _ b hb _ => multiples b hb, ?_⟩
    exact ih (tidy.call c) (tidy.multiples_call multiples now) later

end Heap

namespace Routine

variable {called : Routine} {s : System} {len : UInt32}

theorem heapCall?_eq_allocate_iff :
    called.heapCall? s = some (.allocate len) ↔
      called = .allocateBlock ∧ s.arguments.long 2 = .ok len ∧ len ≠ 0xffffffff := by
  cases called with
  | allocateBlock =>
    rw [heapCall?]
    cases s.arguments.long 2 with
    | error fault => simp
    | ok asked =>
      dsimp only
      split
      next query => simp [query, eq_comm]
      next block =>
        constructor
        · rintro ⟨rfl⟩
          exact ⟨rfl, rfl, block⟩
        · rintro ⟨_, ⟨rfl⟩, _⟩
          rfl
  | freeBlock =>
    rw [heapCall?]
    split <;> simp
  | shrinkBlock =>
    rw [heapCall?]
    split
    · split <;> simp
    · simp
  | _ => simp [heapCall?]

end Routine

namespace LoadedProgram

theorem dvd_alignUp (addr : UInt32) : 16 ∣ (alignUp addr).toNat := by
  rw [alignUp]
  generalize (if (0xffffffff - 15 : UInt32) < addr then 0xffffffff else addr + 15) = padded
  have cut := toNat_and_add padded 15
  have cleared : (padded &&& 15).toNat = padded.toNat % 16 := by
    rw [UInt32.toNat_and]
    exact Nat.and_two_pow_sub_one_eq_mod padded.toNat 4
  omega

theorem dvd_floor_heapSpan {basepage : Basepage} {top : UInt32}
    (room : (heapSpan basepage top).floor < (heapSpan basepage top).top) :
    16 ∣ (heapSpan basepage top).floor.toNat := by
  have max_eq (a b : UInt32) : max a b = if a ≤ b then b else a := rfl
  have min_eq (a b : UInt32) : min a b = if a ≤ b then a else b := rfl
  have start : MemoryMap.userStart.toNat = 0x900 := rfl
  rw [heapSpan] at room ⊢
  dsimp only at room ⊢
  rw [min_eq] at room ⊢
  split at room
  next below =>
    rw [if_pos below, max_eq]
    split
    · omega
    · exact dvd_alignUp _
  · exact absurd room (UInt32.lt_irrefl _)

end LoadedProgram

namespace Session

/-- The address that an action tells the program if it asks for a block and gets one. -/
def handsOut? (s : Session) (action : Action) : Option UInt32 :=
  match s.heapCall? action with
  | some (.allocate _) =>
    let answer := (s.perform action).system.registers.get .answer
    if answer = 0 then none else some answer
  | _ => none

def handedOut (s : Session) : List Action → List UInt32
  | [] => []
  | action :: rest => (s.handsOut? action).toList ++ (s.perform action).handedOut rest

variable {s loaded : Session} {action : Action} {actions : List Action} {file : Bytes}
  {args : List String} {program : LoadedProgram} {unit : Nat}

theorem exists_of_heapCall? {len : UInt32} (h : s.heapCall? action = some (.allocate len)) :
    ∃ vector, action = .trap vector ∧ s.AsksBlock vector len ∧ len ≠ 0xffffffff := by
  cases action with
  | trap vector =>
    rw [heapCall?] at h
    split at h
    next called asked =>
      obtain ⟨rfl, given, block⟩ := Routine.heapCall?_eq_allocate_iff.mp h
      exact ⟨vector, rfl, ⟨asked, given⟩, block⟩
    · cases h
  | _ => cases h

theorem handsOut?_eq (s : Session) (action : Action) :
    (s.handsOut? action).toList = s.system.kernel.heap.handedOut (s.heapCall? action).toList := by
  rw [handsOut?]
  cases asked : s.heapCall? action with
  | none => rfl
  | some c =>
    cases c with
    | allocate len =>
      obtain ⟨vector, rfl, asks, block⟩ := exists_of_heapCall? asked
      have told : (s.perform (.trap vector)).system.registers.get .answer =
          (s.system.kernel.heap.allocate len).1 := by
        rw [perform, asks.trap_allocate block]
        exact Registers.get_set_answer _ _
      dsimp only
      rw [told, Option.toList_some, Heap.handedOut, Heap.handedOut, List.append_nil]
      rfl
    | free base => rfl
    | shrink base len => rfl

theorem handedOut_eq (keeps : ∀ action ∈ actions, action.keepsProgram) :
    s.handedOut actions = s.system.kernel.heap.handedOut (s.heapCalls actions) := by
  induction actions generalizing s with
  | nil => rfl
  | cons action rest ih =>
    obtain ⟨now, later⟩ := List.forall_mem_cons.mp keeps
    rw [handedOut, heapCalls, Heap.handedOut_append, ← heap_perform now, handsOut?_eq, ih later]

/-- Whatever a loaded program asks of its heap, the heap becomes what these calls make of it. The
addresses that the program gets all lie on a boundary of sixteen bytes, or of a divisor of sixteen,
if and only if no block is put directly behind one whose length is not a multiple of that; and so
they do if all lengths that the program asks for are multiples of it. -/
theorem heap_alignment (h : s.load file args = (.ok program, loaded))
    (keeps : ∀ action ∈ actions, action.keepsProgram) (divides : unit ∣ 16) :
    let start := Heap.ofSpan program.heap
    let calls := loaded.heapCalls actions
    (loaded.performAll actions).system.kernel.heap = start.callAll calls ∧
    ((∀ base ∈ loaded.handedOut actions, unit ∣ base.toNat) ↔
      start.PutsBehindMultiples unit calls) ∧
    ((∀ c ∈ calls, ∀ len, c.len? = some len → unit ∣ len.toNat) →
      ∀ base ∈ loaded.handedOut actions, unit ∣ base.toNat) := by
  intro start calls
  obtain ⟨memory, built, rfl, heap⟩ := load_eq_ok h
  obtain ⟨_, _, _, _, _, _, _, span, _⟩ := LoadedProgram.ofFile_eq_ok_iff.mp built
  have tidy : start.Tidy := Heap.tidy_ofSpan program.heap
  have first (room : start.span.floor < start.span.top) : unit ∣ start.span.floor.toNat := by
    have here : start.span = program.heap := rfl
    rw [here, span] at room ⊢
    exact Nat.dvd_trans divides (LoadedProgram.dvd_floor_heapSpan room)
  have told : loaded.handedOut actions = start.handedOut calls := by
    rw [handedOut_eq keeps, heap]
  have iff := tidy.aligned_handedOut_iff first (fun b hb => absurd hb List.not_mem_nil) calls
  have empty : ∀ b ∈ start.blocks, unit ∣ b.len.toNat := fun b hb => absurd hb List.not_mem_nil
  rw [told]
  refine ⟨?_, iff, fun asked => iff.mpr (tidy.putsBehindMultiples empty asked)⟩
  rw [heap_performAll keeps, heap]

/-- Behind a block of sixteen bytes the program asks twice for a block of one length. -/
def reservingTwice (len : UInt32) : List Action :=
  reserveSixteen ++ [.write 0xa00 ([0, 0x48] ++ bytesOfLong len) .user, .trap Trap.gemdosVector,
    .trap Trap.gemdosVector]

set_option maxRecDepth 10000 in
theorem handedOut_reservingTwice {len : UInt32} (member : len ∈ [1, 6]) :
    withInstruction.heapCalls (reservingTwice len) =
        [.allocate 0x10, .allocate len, .allocate len] ∧
      withInstruction.handedOut (reservingTwice len) = [0x910, 0x920, 0x920 + len] := by
  rw [withInstruction, loadedAreas, LoadedProgram.areas, LoadedProgram.userArea_eq]
  simp only [List.mem_cons, List.not_mem_nil, or_false] at member
  rcases member with rfl | rfl <;> decide +kernel

/-- Blocks of sixteen, six and six bytes start at even addresses, but the last one does not start at
a multiple of sixteen, because the one before it does not end there. -/
theorem heap_alignment_reservingSix :
    littleMemory.load oneInstruction [] = (.ok loadedInstruction, withInstruction) ∧
      withInstruction.handedOut (reservingTwice 6) = [0x910, 0x920, 0x926] ∧
      (∀ base ∈ withInstruction.handedOut (reservingTwice 6), 2 ∣ base.toNat) ∧
      ¬(Heap.ofSpan ⟨0x910, 0xa00⟩).PutsBehindMultiples 16
        (withInstruction.heapCalls (reservingTwice 6)) := by
  obtain ⟨asked, told⟩ := @handedOut_reservingTwice 6 (by decide)
  have keeps : ∀ action ∈ reservingTwice 6, action.keepsProgram := by decide
  have ⟨_, _, even⟩ := heap_alignment load_oneInstruction keeps (show 2 ∣ 16 by decide)
  have ⟨_, iff, _⟩ := heap_alignment load_oneInstruction keeps (show 16 ∣ 16 by decide)
  refine ⟨load_oneInstruction, told, even fun c member len same => ?_, fun multiples => ?_⟩
  · rw [asked] at member
    have lengths : c = .allocate 0x10 ∨ c = .allocate 6 := by simpa using member
    rcases lengths with rfl | rfl
    · cases same
      decide
    · cases same
      decide
  · have aligned := iff.mpr multiples
    rw [told] at aligned
    exact absurd (aligned 0x926 (by decide)) (by decide)

/-- Directly behind a block of one byte the next one starts at an odd address. -/
theorem not_aligned_reservingOne :
    littleMemory.load oneInstruction [] = (.ok loadedInstruction, withInstruction) ∧
      16 ∣ littleMemory.ramTop.toNat ∧ 0x1200 ≤ littleMemory.ramTop ∧
      withInstruction.heapCalls (reservingTwice 1) = [.allocate 0x10, .allocate 1, .allocate 1] ∧
      withInstruction.handedOut (reservingTwice 1) = [0x910, 0x920, 0x921] ∧
      ¬(∀ base ∈ withInstruction.handedOut (reservingTwice 1), 2 ∣ base.toNat) ∧
      ¬∀ base ∈ withInstruction.handedOut (reservingTwice 1), 16 ∣ base.toNat := by
  obtain ⟨asked, told⟩ := @handedOut_reservingTwice 1 (by decide)
  have odd : (0x921 : UInt32) ∈ withInstruction.handedOut (reservingTwice 1) := by
    rw [told]
    decide
  exact ⟨load_oneInstruction, by decide, by decide, asked, told,
    fun aligned => absurd (aligned _ odd) (by decide),
    fun aligned => absurd (aligned _ odd) (by decide)⟩

end Session

end AtariTos
