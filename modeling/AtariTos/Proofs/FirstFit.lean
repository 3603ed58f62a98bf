import AtariTos.Proofs.CallFailures
import AtariTos.Proofs.HeapPlacement

namespace AtariTos

namespace Heap

/-- An address between two ends that lies in none of some blocks. -/
structure Vacant (top start : Nat) (blocks : List Block) (n : Nat) : Prop where
  above : start ≤ n
  below : n < top
  apart : ∀ b ∈ blocks, n ∉ b.addresses

/-- The bytes of a block at an address, and the one behind them, lie in the span and outside every
block that is there. -/
def Fits (heap : Heap) (len a : Nat) : Prop :=
  ∀ n ∈ Set.Icc a (a + len),
    Vacant heap.span.top.toNat heap.span.floor.toNat heap.blocks n

variable {heap : Heap} {top start a n : Nat} {blocks placed : List Block} {base len : UInt32}

theorem vacant_cons_iff {b : Block} (low : start ≤ b.base.toNat) (high : b.stop ≤ top)
    (behind : ∀ c ∈ blocks, b.stop ≤ c.base.toNat) :
    Vacant top start (b :: blocks) n ↔
      n ∈ Set.Ico start b.base.toNat ∨ Vacant top b.stop blocks n := by
  have long : b.base.toNat ≤ b.stop := Nat.le_add_right _ _
  constructor
  · rintro ⟨above, below, apart⟩
    obtain ⟨free, apart⟩ := List.forall_mem_cons.mp apart
    rcases Nat.lt_or_ge n b.base.toNat with before | reaches
    · exact .inl ⟨above, before⟩
    · refine .inr ⟨?_, below, apart⟩
      by_contra held
      exact free ⟨reaches, Nat.not_le.mp held⟩
  · rintro (⟨above, before⟩ | ⟨above, below, apart⟩)
    · refine ⟨above, by omega, fun c hc held => ?_⟩
      have reaches : c.base.toNat ≤ n := held.1
      rcases List.mem_cons.mp hc with rfl | hc
      · omega
      · have := behind c hc
        omega
    · refine ⟨by omega, below, List.forall_mem_cons.mpr ⟨fun held => ?_, apart⟩⟩
      have before : n < b.stop := held.2
      omega

/-- A stretch of free addresses lies in one gap, because no block between two gaps is empty. -/
theorem exists_gap_iff (separate : blocks.Pairwise fun a b => a.stop ≤ b.base.toNat)
    (filled : ∀ b ∈ blocks, 0 < b.len.toNat)
    (inside : ∀ b ∈ blocks, start ≤ b.base.toNat ∧ b.stop ≤ top) :
    (∃ g ∈ gapsFrom top start blocks, g.start ≤ a ∧ a + n < g.stop) ↔
      ∀ m ∈ Set.Icc a (a + n), Vacant top start blocks m := by
  induction blocks generalizing start with
  | nil =>
    simp only [gapsFrom, List.mem_singleton, exists_eq_left]
    constructor
    · rintro ⟨low, high⟩ m ⟨first, last⟩
      exact ⟨by omega, by omega, fun _ h => absurd h List.not_mem_nil⟩
    · intro vacant
      have first := (vacant a ⟨le_rfl, by omega⟩).above
      have last := (vacant (a + n) ⟨by omega, le_rfl⟩).below
      exact ⟨first, last⟩
  | cons b rest ih =>
    obtain ⟨behind, separate⟩ := List.pairwise_cons.mp separate
    obtain ⟨some, filled⟩ := List.forall_mem_cons.mp filled
    obtain ⟨⟨low, high⟩, inside⟩ := List.forall_mem_cons.mp inside
    have longer : b.base.toNat < b.stop := Nat.lt_add_of_pos_right some
    have later := ih separate filled fun c hc => ⟨behind c hc, (inside c hc).2⟩
    simp only [gapsFrom, List.mem_cons, exists_eq_or_imp, later, vacant_cons_iff low high behind]
    constructor
    · rintro (⟨first, last⟩ | vacant) m ⟨up, down⟩
      · exact .inl ⟨first.trans up, down.trans_lt last⟩
      · exact .inr (vacant m ⟨up, down⟩)
    · intro vacant
      rcases Nat.lt_or_ge (a + n) b.base.toNat with before | reaches
      · rcases vacant a ⟨le_rfl, by omega⟩ with ⟨first, _⟩ | ⟨passed, _, _⟩
        · exact .inl ⟨first, before⟩
        · omega
      · -- The stretch reaches the block, and holds none of its addresses, so it starts behind it.
        have passed : b.stop ≤ a := by
          rcases vacant (max a b.base.toNat) ⟨by omega, by omega⟩ with ⟨_, before⟩ | ⟨above, _, _⟩
          · omega
          · omega
        refine .inr fun m hm => (vacant m hm).resolve_left fun held => ?_
        have up := hm.1
        have before := held.2
        omega

theorem Tidy.fits_iff (tidy : heap.Tidy) :
    heap.Fits n a ↔ ∃ g ∈ heap.gaps, g.start ≤ a ∧ a + n < g.stop :=
  (exists_gap_iff tidy.separate tidy.filled tidy.inside).symm

/-- Some gap is larger than a length exactly if there is a place to put a block of it. -/
theorem Tidy.exists_fits_iff (tidy : heap.Tidy) :
    (∃ a, heap.Fits n a) ↔ ∃ g ∈ heap.gaps, n < g.len := by
  simp only [tidy.fits_iff, Stretch.len]
  constructor
  · rintro ⟨a, g, member, low, high⟩
    exact ⟨g, member, by omega⟩
  · rintro ⟨g, member, larger⟩
    exact ⟨g.start, g, member, le_rfl, by omega⟩

theorem place_eq_find? (top start : Nat) (blocks : List Block) (len : UInt32) :
    (place top len start blocks).map (·.1) =
      ((gapsFrom top start blocks).find? (len.toNat < ·.len)).map (·.start.toUInt32) := by
  induction blocks generalizing start with
  | nil =>
    rw [place, gapsFrom, List.find?_singleton]
    by_cases fits : len.toNat < top - start
    · have larger : len.toNat < Stretch.len ⟨start, top⟩ := fits
      simp [fits, larger]
    · have full : ¬len.toNat < Stretch.len ⟨start, top⟩ := fits
      simp [fits, full]
  | cons b rest ih =>
    rw [place, gapsFrom]
    by_cases fits : len.toNat < b.base.toNat - start
    · have larger : len.toNat < Stretch.len ⟨start, b.base.toNat⟩ := fits
      rw [if_pos fits, List.find?_cons_of_pos (by simpa using larger)]
      rfl
    · have full : ¬len.toNat < Stretch.len ⟨start, b.base.toNat⟩ := fits
      rw [if_neg fits, List.find?_cons_of_neg (by simpa using full), ← ih, Option.map_map]
      rfl

theorem le_start_of_mem (separate : blocks.Pairwise fun a b => a.stop ≤ b.base.toNat)
    (inside : ∀ b ∈ blocks, start ≤ b.base.toNat ∧ b.stop ≤ top) :
    ∀ g ∈ gapsFrom top start blocks, start ≤ g.start := by
  induction blocks generalizing start with
  | nil => simp [gapsFrom]
  | cons b rest ih =>
    obtain ⟨behind, separate⟩ := List.pairwise_cons.mp separate
    obtain ⟨⟨low, high⟩, inside⟩ := List.forall_mem_cons.mp inside
    have long : b.base.toNat ≤ b.stop := Nat.le_add_right _ _
    intro g member
    rw [gapsFrom] at member
    rcases List.mem_cons.mp member with rfl | member
    · exact le_rfl
    · have := ih separate (fun c hc => ⟨behind c hc, (inside c hc).2⟩) g member
      omega

theorem gapsFrom_ascending (separate : blocks.Pairwise fun a b => a.stop ≤ b.base.toNat)
    (inside : ∀ b ∈ blocks, start ≤ b.base.toNat ∧ b.stop ≤ top) :
    (gapsFrom top start blocks).Pairwise fun g h => g.start ≤ h.start := by
  induction blocks generalizing start with
  | nil => exact List.pairwise_singleton _ _
  | cons b rest ih =>
    obtain ⟨behind, separate'⟩ := List.pairwise_cons.mp separate
    obtain ⟨⟨low, high⟩, inside'⟩ := List.forall_mem_cons.mp inside
    have long : b.base.toNat ≤ b.stop := Nat.le_add_right _ _
    have inside'' : ∀ c ∈ rest, b.stop ≤ c.base.toNat ∧ c.stop ≤ top :=
      fun c hc => ⟨behind c hc, (inside' c hc).2⟩
    rw [gapsFrom]
    refine List.pairwise_cons.mpr ⟨fun g member => ?_, ih separate' inside''⟩
    have := le_start_of_mem separate' inside'' g member
    show start ≤ g.start
    omega

theorem stop_lt_of_mem (small : top < UInt32.size) :
    ∀ g ∈ gapsFrom top start blocks, g.stop < UInt32.size := by
  induction blocks generalizing start with
  | nil => simpa [gapsFrom] using small
  | cons b rest ih =>
    intro g member
    rw [gapsFrom] at member
    rcases List.mem_cons.mp member with rfl | member
    · exact b.base.toNat_lt_size
    · exact ih g member

/-- The first gap that is larger than a length starts at the lowest address at which a block of it
fits. -/
theorem Tidy.isLeast_of_find? {g : Stretch} (tidy : heap.Tidy)
    (first : heap.gaps.find? (n < ·.len) = some g) : IsLeast {a | heap.Fits n a} g.start := by
  obtain ⟨larger, before, after, split, smaller⟩ := List.find?_eq_some_iff_append.mp first
  have larger : n < g.len := by simpa using larger
  rw [Stretch.len] at larger
  constructor
  · exact tidy.fits_iff.mpr ⟨g, List.mem_of_find?_eq_some first, le_rfl, by omega⟩
  · intro a fits
    obtain ⟨g', member, up, down⟩ := tidy.fits_iff.mp fits
    have ascending := gapsFrom_ascending tidy.separate tidy.inside
    rw [← Heap.gaps, split] at ascending
    have behind := (List.pairwise_append.mp ascending).2.1
    rw [split] at member
    rcases List.mem_append.mp member with skipped | member
    · have full : g'.len ≤ n := by simpa using smaller g' skipped
      rw [Stretch.len] at full
      omega
    · rcases List.mem_cons.mp member with rfl | later
      · exact up
      · exact ((List.pairwise_cons.mp behind).1 g' later).trans up

theorem Tidy.isLeast_of_place (tidy : heap.Tidy)
    (h : place heap.span.top.toNat len heap.span.floor.toNat heap.blocks = some (base, placed)) :
    IsLeast {a | heap.Fits len.toNat a} base.toNat := by
  have found := place_eq_find? heap.span.top.toNat heap.span.floor.toNat heap.blocks len
  rw [h] at found
  obtain ⟨g, first, here⟩ := Option.map_eq_some_iff.mp found.symm
  have here : g.start.toUInt32 = base := here
  have least := tidy.isLeast_of_find? first
  have below := (least.1 _ ⟨le_rfl, Nat.le_add_right _ _⟩).below
  have small := heap.span.top.toNat_lt_size
  have start : base.toNat = g.start := by
    rw [← here]
    exact UInt32.toNat_ofNat_of_lt' (below.trans small)
  rwa [start]

theorem Tidy.allocate_cases (tidy : heap.Tidy) (asked : len ≠ 0) :
    ((∀ a, ¬heap.Fits len.toNat a) ∧ heap.allocate len = (0, heap)) ∨
      ∃ base before after, IsLeast {a | heap.Fits len.toNat a} base.toNat ∧
        heap.blocks = before ++ after ∧
        heap.allocate len = (base, { heap with blocks := before ++ ⟨base, len⟩ :: after }) := by
  cases found : place heap.span.top.toNat len heap.span.floor.toNat heap.blocks with
  | none =>
    have full : ∀ g ∈ heap.gaps, g.len ≤ len.toNat := place_eq_none_iff.mp found
    refine .inl ⟨fun a fits => ?_, allocate_of_full (.inr full)⟩
    obtain ⟨g, member, larger⟩ := tidy.exists_fits_iff.mp ⟨a, fits⟩
    have := full g member
    omega
  | some result =>
    obtain ⟨base, placed⟩ := result
    have least := tidy.isLeast_of_place found
    obtain ⟨before, after, split, rfl, _⟩ :=
      place_eq_some heap.span.top.toNat_lt_size tidy.separate tidy.inside found
    refine .inr ⟨base, before, after, least, split, ?_⟩
    rw [Heap.allocate, if_neg asked, found]

theorem Fits.ne_zero {heap : Heap} {base : UInt32} {n : Nat} (fits : heap.Fits n base.toNat)
    (positive : 0 < heap.span.floor) : base ≠ 0 := by
  rintro rfl
  have above := (fits 0 ⟨le_rfl, Nat.zero_le _⟩).above
  have := UInt32.lt_iff_toNat_lt.mp positive
  have zero : (0 : UInt32).toNat = 0 := rfl
  omega

theorem lt_foldl_max_iff (lengths : List Nat) (k : Nat) :
    n < lengths.foldl max k ↔ n < k ∨ ∃ length ∈ lengths, n < length := by
  induction lengths generalizing k with
  | nil => simp
  | cons length rest ih =>
    rw [List.foldl_cons, ih, lt_max_iff, List.exists_mem_cons_iff, or_assoc]

theorem lt_biggestGap_iff : n < heap.biggestGap ↔ ∃ g ∈ heap.gaps, n < g.len := by
  rw [biggestGap, gapLengths_eq, lt_foldl_max_iff, gaps]
  simp

theorem biggestGap_lt_size (heap : Heap) : heap.biggestGap < UInt32.size := by
  by_contra large
  have beyond : UInt32.size - 1 < heap.biggestGap := by
    have : 0 < UInt32.size := by decide
    omega
  obtain ⟨g, member, long⟩ := lt_biggestGap_iff.mp beyond
  have := stop_lt_of_mem heap.span.top.toNat_lt_size g member
  rw [Stretch.len] at long
  omega

theorem Tidy.exists_fits_iff_lt (tidy : heap.Tidy) :
    (∃ a, heap.Fits len.toNat a) ↔ len < heap.biggestGap.toUInt32 := by
  have whole : heap.biggestGap.toUInt32.toNat = heap.biggestGap :=
    UInt32.toNat_ofNat_of_lt' heap.biggestGap_lt_size
  rw [tidy.exists_fits_iff, UInt32.lt_iff_toNat_lt, whole, lt_biggestGap_iff]

end Heap

namespace Session

variable {s : Session} {vector : UInt8} {len : UInt32}

/-- A session is about to ask for a block. -/
structure AsksBlock (s : Session) (vector : UInt8) (len : UInt32) : Prop where
  asked : Trap.routine s.system vector = .ok .allocateBlock
  given : s.system.arguments.long 2 = .ok len

/-- The session hands out a block of a length that it has not handed out before, and tells its
base. -/
def Reserves (s : Session) (vector : UInt8) (len : UInt32) : Prop :=
  ∃ base after, base ≠ 0 ∧ s.trap vector = (.ok .proceed, after) ∧
    after.system.registers.get .answer = base ∧ ⟨base, len⟩ ∉ s.system.kernel.heap.blocks ∧
    ⟨base, len⟩ ∈ after.system.kernel.heap.blocks

theorem AsksBlock.run_eq (asks : s.AsksBlock vector len) :
    Service.allocateBlock.run s.system =
      if len = 0xffffffff then .ok s.system.kernel.heap.biggestGap.toUInt32 s.system
      else
        .ok (s.system.kernel.heap.allocate len).1
          { s.system with kernel.heap := (s.system.kernel.heap.allocate len).2 } := by
  unfold Service.allocateBlock
  rw [Service.run_argumentLong_bind, asks.given]
  dsimp only
  rw [Service.run_get_bind]
  split <;> rfl

theorem AsksBlock.trap_query (asks : s.AsksBlock vector 0xffffffff) :
    s.trap vector = (.ok .proceed,
      { s with
        system := Trap.answer s.system s.system.kernel.heap.biggestGap.toUInt32 }) := by
  have ran := asks.run_eq
  rw [if_pos rfl] at ran
  rw [trap_of_map asks.asked rfl, ran]

theorem AsksBlock.trap_allocate (asks : s.AsksBlock vector len) (block : len ≠ 0xffffffff) :
    s.trap vector = (.ok .proceed,
      { s with
        system :=
          Trap.answer { s.system with kernel.heap := (s.system.kernel.heap.allocate len).2 }
            (s.system.kernel.heap.allocate len).1 }) := by
  have ran := asks.run_eq
  rw [if_neg block] at ran
  rw [trap_of_map asks.asked rfl, ran]

theorem not_reserves_of_kept {value : UInt32}
    (trapped : s.trap vector = (.ok .proceed, { s with system := Trap.answer s.system value })) :
    ¬s.Reserves vector len := by
  rintro ⟨base, after, _, trapped', _, fresh, held⟩
  rw [trapped] at trapped'
  cases trapped'
  exact fresh held

/-- A block that is smaller than the biggest gap is handed out, and otherwise nothing changes but
the answer. -/
theorem AsksBlock.trap_cases (asks : s.AsksBlock vector len) (tidy : s.system.kernel.heap.Tidy)
    (positive : 0 < s.system.kernel.heap.span.floor) (block : len ≠ 0xffffffff) :
    (0 < len ∧ len < s.system.kernel.heap.biggestGap.toUInt32) ∧ s.Reserves vector len ∨
      ¬(0 < len ∧ len < s.system.kernel.heap.biggestGap.toUInt32) ∧
        s.trap vector = (.ok .proceed, { s with system := Trap.answer s.system 0 }) := by
  have trapped := asks.trap_allocate block
  by_cases nothing : len = 0
  · subst nothing
    exact .inr ⟨fun h => UInt32.lt_irrefl 0 h.1, trapped⟩
  have bytes : len.toNat ≠ 0 := fun zero => nothing (UInt32.toNat_inj.mp zero)
  have some : 0 < len := UInt32.lt_iff_toNat_lt.mpr (Nat.pos_of_ne_zero bytes)
  rcases tidy.allocate_cases nothing with
    ⟨nowhere, full⟩ | ⟨base, before, after, least, split, room⟩
  · rw [full] at trapped
    refine .inr ⟨fun h => ?_, trapped⟩
    obtain ⟨a, fits⟩ := tidy.exists_fits_iff_lt.mpr h.2
    exact nowhere a fits
  · rw [room] at trapped
    have fits : s.system.kernel.heap.Fits len.toNat base.toNat := least.1
    refine .inl ⟨⟨some, tidy.exists_fits_iff_lt.mp ⟨_, fits⟩⟩, base, _, fits.ne_zero positive,
      trapped, Registers.get_set_answer _ _, fun held => ?_, ?_⟩
    · -- A block that is held already would contain its own base, which is free.
      have free := (fits base.toNat ⟨le_rfl, by omega⟩).apart _ held
      apply free
      constructor
      · exact le_rfl
      · show base.toNat < base.toNat + len.toNat
        omega
    · show ⟨base, len⟩ ∈ before ++ ⟨base, len⟩ :: after
      simp

/-- A program gets a block exactly if it asks for some bytes, and for fewer than the biggest gap
has. -/
theorem AsksBlock.reserves_iff (asks : s.AsksBlock vector len) (tidy : s.system.kernel.heap.Tidy)
    (positive : 0 < s.system.kernel.heap.span.floor) :
    s.Reserves vector len ↔ 0 < len ∧ len < s.system.kernel.heap.biggestGap.toUInt32 := by
  by_cases query : len = 0xffffffff
  · subst query
    refine iff_of_false (not_reserves_of_kept asks.trap_query) fun h => ?_
    have less := UInt32.lt_iff_toNat_lt.mp h.2
    have bound := s.system.kernel.heap.biggestGap.toUInt32.toNat_lt_size
    have greatest : (0xffffffff : UInt32).toNat = UInt32.size - 1 := rfl
    omega
  · rcases asks.trap_cases tidy positive query with ⟨smaller, reserves⟩ | ⟨larger, trapped⟩
    · exact iff_of_true reserves smaller
    · exact iff_of_false (not_reserves_of_kept trapped) larger

end Session

namespace Heap

/-- A block is put to the lowest address from which on its bytes and one more are free, between the
blocks that are there; zero is answered exactly if there is no such address, and then the heap stays
as it is. A program that asks for a block gets one exactly if it asks for some bytes, and for fewer
than it would be told if it asked for the biggest gap instead; otherwise it is told zero. -/
theorem first_fit (span : HeapSpan) (positive : 0 < span.floor) (calls : List HeapCall) :
    let heap := (ofSpan span).callAll calls
    (∀ len, len ≠ 0 →
      ((heap.allocate len).1 = 0 ↔ ∀ a, ¬heap.Fits len.toNat a) ∧
      ((heap.allocate len).1 = 0 → (heap.allocate len).2 = heap) ∧
      ((heap.allocate len).1 ≠ 0 →
        IsLeast {a | heap.Fits len.toNat a} (heap.allocate len).1.toNat ∧
        ∃ before after, heap.blocks = before ++ after ∧
          (heap.allocate len).2 =
            { heap with blocks := before ++ ⟨(heap.allocate len).1, len⟩ :: after })) ∧
    ∀ (s t : Session) (vector vector' : UInt8) (len : UInt32),
      s.system.kernel.heap = heap → t.system.kernel.heap = heap →
      s.AsksBlock vector len → t.AsksBlock vector' 0xffffffff →
      ∃ biggest, t.trap vector' =
          (.ok .proceed, { t with system := Trap.answer t.system biggest }) ∧
        (s.Reserves vector len ↔ 0 < len ∧ len < biggest) ∧
        (len ≠ 0xffffffff → ¬s.Reserves vector len →
          s.trap vector = (.ok .proceed, { s with system := Trap.answer s.system 0 })) := by
  intro heap
  obtain ⟨tidy, same⟩ : heap.Tidy ∧ heap.span = span := (tidy_ofSpan span).callAll calls
  rw [← same] at positive
  constructor
  · intro len asked
    rcases tidy.allocate_cases asked with
      ⟨nowhere, full⟩ | ⟨base, before, after, least, split, room⟩
    · rw [full]
      exact ⟨iff_of_true rfl nowhere, fun _ => rfl, fun some => absurd rfl some⟩
    · rw [room]
      have some : base ≠ 0 := least.1.ne_zero positive
      refine ⟨iff_of_false some fun nowhere => nowhere _ least.1, fun zero => absurd zero some,
        fun _ => ⟨least, before, after, split, rfl⟩⟩
  · intro s t vector vector' len here there asks queries
    rw [← here] at tidy positive there
    refine ⟨_, there ▸ queries.trap_query, asks.reserves_iff tidy positive, fun block refused => ?_⟩
    rcases asks.trap_cases tidy positive block with ⟨_, reserves⟩ | ⟨_, trapped⟩
    · exact absurd reserves refused
    · exact trapped

end Heap

namespace Session

/-- The program reserves two blocks and gives the first one back. -/
def freeingFirst : List Action :=
  reserveSixteen ++ [.write 0xa00 [0, 0x48, 0, 0, 0, 0x20] .user, .trap Trap.gemdosVector,
    .write 0xa00 [0, 0x49, 0, 0, 9, 0x10] .user, .trap Trap.gemdosVector]

/-- The program has given back sixteen bytes in front of a block and is about to ask for more. -/
def askingAgain (len : UInt32) : Session :=
  withInstruction.performAll (freeingFirst ++ [.write 0xa00 ([0, 0x48] ++ bytesOfLong len) .user])

def heapAgain : Heap :=
  (Heap.ofSpan ⟨0x910, 0xa00⟩).callAll [.allocate 0x10, .allocate 0x20, .free 0x910]

set_option maxRecDepth 10000 in
theorem askingAgain_eq {len : UInt32} (member : len ∈ [0xbf, 0xc0, 0xffffffff]) :
    (askingAgain len).system.kernel.heap = heapAgain ∧
      Trap.routine (askingAgain len).system Trap.gemdosVector = .ok .allocateBlock ∧
      (askingAgain len).system.arguments.long 2 = .ok len := by
  rw [askingAgain, withInstruction, loadedAreas, LoadedProgram.areas, LoadedProgram.userArea_eq]
  simp only [List.mem_cons, List.not_mem_nil, or_false] at member
  rcases member with rfl | rfl | rfl <;> decide +kernel

set_option maxRecDepth 10000 in
theorem answer_askingAgain :
    ((askingAgain 0xffffffff).trap Trap.gemdosVector).2.system.registers.get .answer = 0xc0 := by
  rw [askingAgain, withInstruction, loadedAreas, LoadedProgram.areas, LoadedProgram.userArea_eq]
  decide +kernel

end Session

/-- Sixteen bytes do not fit into a gap of sixteen, so that they come to stand behind the block; the
gap there is the biggest, and all of it but one byte can be had. -/
theorem Heap.first_fit_askingAgain :
    (0 : UInt32) < 0x910 ∧ Session.heapAgain.blocks = [⟨0x920, 0x20⟩] ∧
      (Session.askingAgain 0xffffffff).AsksBlock Trap.gemdosVector 0xffffffff ∧
      IsLeast {a | Session.heapAgain.Fits 0x10 a} 0x940 ∧
      (Session.askingAgain 0xbf).Reserves Trap.gemdosVector 0xbf ∧
      ¬(Session.askingAgain 0xc0).Reserves Trap.gemdosVector 0xc0 := by
  have positive : (0 : UInt32) < 0x910 := by decide
  obtain ⟨place, program⟩ := Heap.first_fit ⟨0x910, 0xa00⟩ positive
    [.allocate 0x10, .allocate 0x20, .free 0x910]
  have asks : ∀ len ∈ [0xbf, 0xc0, 0xffffffff],
      (Session.askingAgain len).AsksBlock Trap.gemdosVector len := by
    intro len member
    obtain ⟨_, asked, given⟩ := Session.askingAgain_eq member
    exact ⟨asked, given⟩
  have queries := asks 0xffffffff (by decide)
  have least := ((place 0x10 (by decide)).2.2 (by decide)).1
  have hands : ∀ len ∈ [0xbf, 0xc0],
      (Session.askingAgain len).Reserves Trap.gemdosVector len ↔ 0 < len ∧ len < 0xc0 := by
    intro len member
    have member : len ∈ [0xbf, 0xc0, 0xffffffff] := by
      rcases List.mem_pair.mp member with rfl | rfl <;> decide
    have here := (Session.askingAgain_eq member).1
    have there := (@Session.askingAgain_eq 0xffffffff (by decide)).1
    obtain ⟨biggest, told, iff, _⟩ := program _ _ _ _ len here there (asks len member) queries
    have answer := Session.answer_askingAgain
    rw [told, Trap.answer, Registers.get_set_answer] at answer
    rwa [← answer]
  refine ⟨positive, by decide, queries, least, ?_, ?_⟩
  · exact (hands 0xbf (by decide)).mpr (by decide)
  · intro reserves
    exact absurd ((hands 0xc0 (by decide)).mp reserves) (by decide)

end AtariTos
