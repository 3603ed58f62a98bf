import AtariTos.Proofs.CheckedLoading

namespace AtariTos

namespace Executable

variable {file : Bytes} {ramTop : UInt32}

theorem forall_fixups_iff {p : Nat → Prop} :
    (∀ offset ∈ fixups file, p offset) ↔
      (absolute file = 0 → ∀ offset ∈ Fixups.offsets (table file), p offset) := by
  unfold fixups
  split
  next relative => exact ⟨fun h _ => h, fun h => h relative⟩
  next fixed => exact ⟨fun _ relative => absurd relative fixed, fun _ _ none => absurd none (by simp)⟩

/-- The only fault that loading a file can meet is that there is no user memory. -/
theorem fault_of_unmet {cause : Fault}
    (h : firstUnmet? (conditions file ramTop) = some (.fault cause)) :
    cause = .noBytes "user ram" := by
  obtain ⟨condition, found, reported⟩ := Option.map_eq_some_iff.mp h
  have member := List.mem_of_find?_eq_some found
  rcases List.mem_append.mp member with fixed | member
  · simp only [List.mem_cons, List.not_mem_nil, or_false] at fixed
    rcases fixed with rfl | rfl | rfl | rfl <;> cases reported
  rcases List.mem_append.mp member with fixup | last
  · obtain ⟨offset, _, rfl⟩ := List.mem_map.mp fixup
    cases reported
  · rw [List.mem_singleton.mp last] at reported
    cases reported
    rfl

end Executable

namespace Session

open Executable

/-- A file is loaded exactly if it meets every condition. The first one that it does not meet decides
what is reported; memory is empty then. The areas never collide, and nothing that is computed on the
way goes out of range, whatever the file that the address space of a host holds. -/
theorem load_laws (s : Session) (file : Bytes) (args : List String) :
    ((∃ program, (s.load file args).1 = .ok program) ↔
      28 ≤ file.size ∧ mark file = 0x601a ∧ text file + data file ≤ file.size - 28 ∧
      text file + data file + bss file ≤ s.ramTop.toNat - 0x1200 ∧
      (absolute file = 0 →
        ∀ offset ∈ Fixups.offsets (table file), offset + 4 ≤ text file + data file) ∧
      0x900 < s.ramTop.toNat) ∧
    (∀ failure, (s.load file args).1 = .error failure ↔
      firstUnmet? (conditions file s.ramTop) = some failure) ∧
    (∀ name base stop existing,
      (s.load file args).1 ≠ .error (.fault (.collision name base stop existing))) ∧
    (∀ failure, (s.load file args).1 = .error failure →
      (s.load file args).2.system.memory = .empty) ∧
    (file.size ≤ 2 ^ 56 →
      Checked.ofFile? file args s.ramTop = some (LoadedProgram.ofFile file args s.ramTop)) := by
  rw [← forall_fixups_iff, ← firstUnmet?_eq_none_iff]
  have fails (failure : LoadFailure) : (s.load file args).1 = .error failure ↔
      firstUnmet? (conditions file s.ramTop) = some failure := by
    cases judged : firstUnmet? (conditions file s.ramTop) with
    | none => simp [(load_of_met args judged).1]
    | some first => simp [load_of_unmet judged]
  refine ⟨?_, fails, fun name base stop existing failed => ?_, fun failure failed => ?_,
    Checked.ofFile?_eq args s.ramTop⟩
  · cases judged : firstUnmet? (conditions file s.ramTop) with
    | none => simp [(load_of_met args judged).1]
    | some first => simp [load_of_unmet judged]
  · cases fault_of_unmet ((fails _).mp failed)
  · rw [load_of_unmet ((fails failure).mp failed)]

end Session

end AtariTos
