import AtariTos.Proofs.BasepageBytes
import AtariTos.Proofs.ExecutableFiles

namespace AtariTos

namespace GuestMemory

variable {area : Area} {areas front back : List Area}

theorem insertSorted_of_above (above : ∀ other ∈ areas, other.base ≤ area.base) :
    insertSorted area areas = areas ++ [area] := by
  induction areas with
  | nil => rfl
  | cons other rest ih =>
    have low := UInt32.not_lt.mpr (above other List.mem_cons_self)
    rw [insertSorted, if_neg low, ih fun a ha => above a (List.mem_cons_of_mem _ ha)]
    rfl

theorem addAll_of_ordered (ordered : (⟨front ++ back⟩ : GuestMemory).Ordered) :
    addAll ⟨front⟩ back = .ok ⟨front ++ back⟩ := by
  induction back generalizing front with
  | nil =>
    rw [List.append_nil, addAll, List.foldlM_nil]
    rfl
  | cons area rest ih =>
    have part : (⟨front⟩ : GuestMemory).Ordered :=
      ⟨(List.pairwise_append.mp ordered.separate).1,
        fun a ha => ordered.filled a (List.mem_append_left _ ha)⟩
    have filled : area.isEmpty = false :=
      ordered.filled area (List.mem_append_right _ List.mem_cons_self)
    have below : ∀ other ∈ front, other.stop ≤ area.base.toNat := fun other ho =>
      (List.pairwise_append.mp ordered.separate).2.2 other ho area List.mem_cons_self
    have above : ∀ other ∈ front, other.base ≤ area.base := fun other ho =>
      UInt32.le_iff_toNat_le.mpr (Nat.le_trans other.base_le_stop (below other ho))
    have added : add ⟨front⟩ area = .ok ⟨front ++ [area]⟩ := by
      rw [← insertSorted_of_above above]
      exact part.add_eq_ok_iff.mpr ⟨filled, fun other ho => .inr (below other ho), rfl⟩
    have regroup : front ++ area :: rest = front ++ [area] ++ rest := by simp
    rw [regroup] at ordered ⊢
    rw [addAll, List.foldlM_cons, added]
    exact ih ordered

theorem addAll_empty_of_ordered (ordered : (⟨areas⟩ : GuestMemory).Ordered) :
    empty.addAll areas = .ok ⟨areas⟩ := by
  have none : [] ++ areas = areas := rfl
  rw [← none] at ordered ⊢
  exact addAll_of_ordered ordered

theorem addAll_concat {memory next : GuestMemory} (h : memory.addAll areas = .ok next) :
    memory.addAll (areas ++ [area]) = next.add area := by
  rw [addAll] at h
  rw [addAll, List.foldlM_append, h]
  change (next.add area >>= fun last => pure last) = _
  exact bind_pure _

end GuestMemory

namespace LoadedProgram

variable {basepage : Basepage} {stored : Bytes} {ramTop : UInt32}

def lowAreas (basepage : Basepage) : List Area :=
  [systemArea "low page" MemoryMap.vectors, trampolineArea,
    systemArea "mid page" MemoryMap.saveArea,
    systemArea "supervisor stack" MemoryMap.supervisorStack, basepageArea basepage]

theorem stop_systemArea {name : String} {region : Region} (small : region.len < UInt32.size) :
    (systemArea name region).stop = region.base.toNat + region.len := by
  rw [systemArea, Area.stop_ofBuffer (by rwa [size_zeros]), size_zeros]

theorem stop_basepageArea (basepage : Basepage) : (basepageArea basepage).stop = 0x900 := by
  have size : basepage.encode.toArray.size = 256 := basepage.length_encode
  rw [basepageArea, Area.stop_ofBuffer (by rw [size]; decide), size]
  rfl

theorem filled_of_stop {a : Area} (h : a.base.toNat < a.stop) : a.isEmpty = false := by
  refine Area.isEmpty_eq_false_iff.mpr ?_
  unfold Area.stop at h
  omega

theorem spans_lowAreas (basepage : Basepage) :
    (lowAreas basepage).map (fun a => (a.base.toNat, a.stop)) =
      [(0, 0x200), (0x200, 0x204), (0x380, 0x600), (0x600, 0x800), (0x800, 0x900)] := by
  have vectors : (systemArea "low page" MemoryMap.vectors).stop = 0x200 :=
    stop_systemArea (by decide)
  have saveArea : (systemArea "mid page" MemoryMap.saveArea).stop = 0x600 :=
    stop_systemArea (by decide)
  have stack : (systemArea "supervisor stack" MemoryMap.supervisorStack).stop = 0x800 :=
    stop_systemArea (by decide)
  have page := stop_basepageArea basepage
  simp only [lowAreas, List.map_cons, List.map_nil, vectors, saveArea, stack, page]
  rfl

theorem ordered_lowAreas (basepage : Basepage) :
    (⟨lowAreas basepage⟩ : GuestMemory).Ordered ∧
      ∀ a ∈ lowAreas basepage, a.stop ≤ MemoryMap.userStart.toNat := by
  have spans := spans_lowAreas basepage
  have apart : ((lowAreas basepage).map fun a => (a.base.toNat, a.stop)).Pairwise
      fun a b => a.2 ≤ b.1 := by
    rw [spans]
    decide
  have each : ∀ span ∈ (lowAreas basepage).map (fun a => (a.base.toNat, a.stop)),
      span.1 < span.2 ∧ span.2 ≤ 0x900 := by
    rw [spans]
    decide
  refine ⟨⟨List.pairwise_map.mp apart, fun a ha => ?_⟩, fun a ha => ?_⟩
  · exact filled_of_stop (each _ (List.mem_map_of_mem ha)).1
  · exact (each _ (List.mem_map_of_mem ha)).2

theorem addAll_areas (short : stored.size ≤ ramTop.toNat - 0x900) :
    GuestMemory.empty.addAll (areas basepage stored ramTop) =
      if ramTop.toNat ≤ 0x900 then .error (.noBytes "user ram")
      else .ok ⟨areas basepage stored ramTop⟩ := by
  obtain ⟨ordered, low⟩ := ordered_lowAreas basepage
  rw [← MemoryMap.toNat_userLen] at short
  have size := size_userMemory short
  have start := MemoryMap.toNat_userLen ramTop
  have small : (stored ++ zeros ((MemoryMap.userLen ramTop).toNat - stored.size)).size <
      UInt32.size := by
    rw [size]
    exact (MemoryMap.userLen ramTop).toNat_lt_size
  have nothing : (userArea stored ramTop).isEmpty = decide ((MemoryMap.userLen ramTop).toNat = 0) := by
    rw [userArea, Area.isEmpty_ofBuffer small, size]
  have parts : areas basepage stored ramTop = lowAreas basepage ++ [userArea stored ramTop] := rfl
  rw [parts]
  split
  next none =>
    have empty : (userArea stored ramTop).isEmpty = true := by
      rw [nothing]
      exact decide_eq_true (by omega)
    rw [GuestMemory.addAll_concat (GuestMemory.addAll_empty_of_ordered ordered),
      GuestMemory.add_eq, if_pos empty]
    rfl
  next room =>
    have filled : (userArea stored ramTop).isEmpty = false := by
      rw [nothing]
      exact decide_eq_false (by omega)
    refine GuestMemory.addAll_empty_of_ordered
      ⟨List.pairwise_append.mpr ⟨ordered.separate, List.pairwise_singleton _ _, ?_⟩, ?_⟩
    · intro a ha b hb
      rw [List.mem_singleton.mp hb]
      exact low a ha
    · intro a ha
      rcases List.mem_append.mp ha with ha | ha
      · exact ordered.filled a ha
      · rwa [List.mem_singleton.mp ha]

end LoadedProgram

namespace Executable

/-- Something that a file has to meet, with what is reported if it does not. -/
structure Condition where
  met : Bool
  failure : LoadFailure

def firstUnmet? (conditions : List Condition) : Option LoadFailure :=
  (conditions.find? (!·.met)).map (·.failure)

variable {file : Bytes} {args : List String} {ramTop : UInt32} {rest : List Condition}

theorem firstUnmet?_cons (met : Bool) (failure : LoadFailure) (rest : List Condition) :
    firstUnmet? (⟨met, failure⟩ :: rest) =
      if met = true then firstUnmet? rest else some failure := by
  cases met <;> rfl

/-- That a longword to be fixed lies inside an image of so many bytes. -/
def fixupInside (size offset : Nat) : Condition :=
  ⟨offset + 4 ≤ size, .fixupOutside offset⟩

theorem firstUnmet?_fixups (size : Nat) (offsets : List Nat) :
    firstUnmet? (offsets.map (fixupInside size) ++ rest) =
      match Fixups.verdict size 0 offsets with
      | .ok _ => firstUnmet? rest
      | .error offset => some (.fixupOutside offset) := by
  have judged (o : Nat) : (!(fixupInside size o).met) = decide (size < o + 4) := by
    rw [fixupInside, ← decide_not]
    exact decide_eq_decide.mpr Nat.not_le
  rw [firstUnmet?, Fixups.verdict, List.find?_append, List.find?_map]
  simp only [Function.comp_def, judged]
  cases offsets.find? (size < · + 4) with
  | none => rfl
  | some offset => rfl

/-- What a file has to meet to be loaded into memory that ends at `ramTop`, in the order in which it
is judged. -/
def conditions (file : Bytes) (ramTop : UInt32) : List Condition :=
  [⟨28 ≤ file.size, .badHeader (.short file.size)⟩,
    ⟨mark file = 0x601a, .badHeader (.wrongMark (mark file).toUInt16)⟩,
    ⟨text file + data file ≤ file.size - 28,
      .incomplete (text file + data file) (file.size - 28)⟩,
    ⟨text file + data file + bss file ≤ ramTop.toNat - 0x1200,
      .noRoom (text file + data file + bss file) (ramTop.toNat - 0x1200).toUInt32⟩] ++
  ((fixups file).map (fixupInside (text file + data file)) ++
    [⟨0x900 < ramTop.toNat, .fault (.noBytes "user ram")⟩])

theorem firstUnmet?_eq_none_iff : firstUnmet? (conditions file ramTop) = none ↔
    28 ≤ file.size ∧ mark file = 0x601a ∧ text file + data file ≤ file.size - 28 ∧
    text file + data file + bss file ≤ ramTop.toNat - 0x1200 ∧
    (∀ offset ∈ fixups file, offset + 4 ≤ text file + data file) ∧ 0x900 < ramTop.toNat := by
  rw [firstUnmet?, Option.map_eq_none_iff, List.find?_eq_none, conditions, List.forall_mem_append,
    List.forall_mem_append, List.forall_mem_map]
  simp [fixupInside, and_assoc]

def program (file : Bytes) (args : List String) (ramTop : UInt32) : LoadedProgram :=
  let page := LoadedProgram.initialBasepage (header file) args ramTop
  ⟨header file, page, LoadedProgram.heapSpan page (MemoryMap.userLen ramTop), ramTop,
    (fixups file).length⟩

def image (file : Bytes) : Bytes :=
  Fixups.relocated 0x900 (stored file) (fixups file)

theorem size_image (complete : text file + data file ≤ file.size - 28) :
    (image file).size = text file + data file := by
  rw [image, Fixups.size_relocated, size_stored complete]

def areas (file : Bytes) (args : List String) (ramTop : UInt32) : List Area :=
  LoadedProgram.areas (program file args ramTop).basepage (image file) ramTop

theorem ofFile_eq (file : Bytes) (args : List String) (ramTop : UInt32) :
    LoadedProgram.ofFile file args ramTop =
      match firstUnmet? (conditions file ramTop) with
      | some failure => .error failure
      | none => .ok (program file args ramTop, ⟨areas file args ramTop⟩) := by
  have spare : (ramTop.toNat - 0x1200).toUInt32.toNat = ramTop.toNat - 0x1200 :=
    UInt32.toNat_ofNat_of_lt' (Nat.lt_of_le_of_lt (Nat.sub_le _ _) ramTop.toNat_lt_size)
  have available : MemoryMap.userLen (MemoryMap.userLen ramTop) =
      (ramTop.toNat - 0x1200).toUInt32 := by
    rw [← UInt32.toNat_inj, MemoryMap.toNat_userLen, MemoryMap.toNat_userLen, spare, Nat.sub_sub]
  rw [LoadedProgram.ofFile, parse_eq, conditions]
  simp only [List.cons_append, List.nil_append, firstUnmet?_cons, decide_eq_true_eq]
  by_cases whole : 28 ≤ file.size
  swap
  · rw [if_neg whole, if_pos (Nat.not_le.mp whole)]
    rfl
  rw [if_pos whole, if_neg (Nat.not_lt.mpr whole)]
  by_cases marked : mark file = 0x601a
  swap
  · rw [if_neg marked, if_pos marked]
    rfl
  rw [if_pos marked, if_neg (not_not.mpr marked), LoadedProgram.mapError_ok_bind]
  simp only [headerLen, loadLength_header, imageLength_header, available, spare]
  by_cases complete : text file + data file ≤ file.size - 28
  swap
  · rw [if_neg complete, if_pos (Nat.not_le.mp complete)]
    rfl
  rw [if_pos complete, if_neg (Nat.not_lt.mpr complete)]
  by_cases fits : text file + data file + bss file ≤ ramTop.toNat - 0x1200
  swap
  · rw [if_neg fits, if_pos (Nat.not_le.mp fits)]
    rfl
  rw [if_pos fits, if_neg (Nat.not_lt.mpr fits), segments_eq complete, firstUnmet?_fixups]
  cases judged : Fixups.verdict (text file + data file) 0 (fixups file) with
  | error offset => rfl
  | ok count =>
    have all : count = (fixups file).length := by
      rw [(Fixups.verdict_eq_ok_iff.mp judged).2, Nat.zero_add]
    have size := size_image complete
    have short : (image file).size ≤ ramTop.toNat - 0x900 := by omega
    refine Eq.trans (LoadedProgram.ok_bind (image file, count)) ?_
    dsimp only
    rw [LoadedProgram.addAll_areas short, firstUnmet?_cons]
    by_cases room : 0x900 < ramTop.toNat
    swap
    · rw [if_pos (Nat.not_lt.mp room), if_neg (by simpa using room)]
      rfl
    rw [if_neg (Nat.not_le.mpr room), if_pos (by simpa using room), all]
    rfl

end Executable

namespace Session

variable {s loaded : Session} {file : Bytes} {args : List String} {program : LoadedProgram}

theorem load_of_unmet {failure : LoadFailure}
    (h : Executable.firstUnmet? (Executable.conditions file s.ramTop) = some failure) :
    s.load file args = (.error failure, { s with program := none, system.memory := .empty }) := by
  rw [load, Executable.ofFile_eq, h]

theorem load_of_met (args : List String)
    (h : Executable.firstUnmet? (Executable.conditions file s.ramTop) = none) :
    (s.load file args).1 = .ok (Executable.program file args s.ramTop) ∧
      (s.load file args).2.system.memory = ⟨Executable.areas file args s.ramTop⟩ := by
  rw [load, Executable.ofFile_eq, h]
  exact ⟨rfl, rfl⟩

theorem exists_load_of_met (args : List String)
    (h : Executable.firstUnmet? (Executable.conditions file s.ramTop) = none) :
    ∃ loaded, s.load file args = (.ok (Executable.program file args s.ramTop), loaded) :=
  ⟨(s.load file args).2, Prod.ext (load_of_met args h).1 rfl⟩

theorem met_of_load (h : s.load file args = (.ok program, loaded)) :
    Executable.firstUnmet? (Executable.conditions file s.ramTop) = none ∧
      program = Executable.program file args s.ramTop ∧
      loaded.system.memory = ⟨Executable.areas file args s.ramTop⟩ := by
  cases judged : Executable.firstUnmet? (Executable.conditions file s.ramTop) with
  | some failure =>
    rw [load_of_unmet judged] at h
    cases h
  | none =>
    have met := load_of_met args judged
    rw [h] at met
    cases met.1
    exact ⟨rfl, rfl, met.2⟩

end Session

end AtariTos
