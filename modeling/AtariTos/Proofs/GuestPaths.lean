import AtariTos.Proofs.DrivePaths
import AtariTos.Proofs.GuestStrings
import AtariTos.Proofs.SuccessivePrograms

namespace AtariTos

namespace GuestName

/-- A name that is left when a path has been read. -/
structure IsNormal (name : GuestName) : Prop where
  plain : name.IsPlain
  filled : name ≠ []
  whole : ∀ byte ∈ name, byte ≠ 0x2f ∧ byte ≠ 0x5c

/-- A name that a guest path can spell. -/
structure IsProper (name : GuestName) : Prop extends name.IsNormal where
  ended : 0 ∉ name

theorem isSeparator_eq_false_iff {byte : UInt8} :
    isSeparator byte = false ↔ byte ≠ 0x2f ∧ byte ≠ 0x5c := by
  rw [isSeparator, Bool.or_eq_false_iff, decide_eq_false_iff_not, decide_eq_false_iff_not]
  rfl

theorem IsNormal.undivided {name : GuestName} (normal : name.IsNormal) :
    ∀ byte ∈ name, isSeparator byte = false :=
  fun byte member => isSeparator_eq_false_iff.mpr (normal.whole byte member)

end GuestName

namespace Drive

variable {drive : Drive} {guest rest : List UInt8} {name : GuestName} {names : List GuestName}

theorem segments_append (whole : ∀ byte ∈ name, GuestName.isSeparator byte = false)
    {first : GuestName} {more : List GuestName} (h : segments rest = first :: more) :
    segments (name ++ rest) = (name ++ first) :: more := by
  induction name with
  | nil => exact h
  | cons byte name ih =>
    obtain ⟨here, whole⟩ := List.forall_mem_cons.mp whole
    rw [List.cons_append, segments, ih whole]
    dsimp only
    rw [here, if_neg Bool.false_ne_true]
    rfl

theorem segments_separator {byte : UInt8} (separates : GuestName.isSeparator byte = true)
    {first : GuestName} {more : List GuestName} (h : segments rest = first :: more) :
    segments (byte :: rest) = [] :: first :: more := by
  rw [segments, h]
  dsimp only
  rw [if_pos separates]

theorem exists_segments (guest : List UInt8) : ∃ first more, segments guest = first :: more := by
  cases guest with
  | nil => exact ⟨_, _, rfl⟩
  | cons byte rest =>
    rw [segments]
    split
    · exact ⟨_, _, rfl⟩
    · split <;> exact ⟨_, _, rfl⟩

theorem of_mem_segments {segment : GuestName} (member : segment ∈ segments guest) :
    ∀ byte ∈ segment, byte ∈ guest ∧ GuestName.isSeparator byte = false := by
  induction guest generalizing segment with
  | nil =>
    obtain rfl : segment = [] := by simpa [segments] using member
    exact fun _ h => absurd h List.not_mem_nil
  | cons byte rest ih =>
    obtain ⟨first, more, split⟩ := exists_segments rest
    have before : ∀ other ∈ first :: more, ∀ b ∈ other,
        b ∈ byte :: rest ∧ GuestName.isSeparator b = false := fun other h b hb =>
      have ⟨inside, apart⟩ := ih (split ▸ h) b hb
      ⟨List.mem_cons_of_mem _ inside, apart⟩
    cases separates : GuestName.isSeparator byte with
    | true =>
      rw [segments_separator separates split] at member
      rcases List.mem_cons.mp member with rfl | later
      · exact fun _ h => absurd h List.not_mem_nil
      · exact before segment later
    | false =>
      have joined : segments (byte :: rest) = (byte :: first) :: more := by
        rw [segments, split]
        dsimp only
        rw [separates, if_neg Bool.false_ne_true]
      rw [joined] at member
      rcases List.mem_cons.mp member with rfl | later
      · intro b hb
        rcases List.mem_cons.mp hb with rfl | hb
        · exact ⟨List.mem_cons_self, separates⟩
        · exact before first List.mem_cons_self b hb
      · exact before segment (List.mem_cons_of_mem _ later)

/-- A path that spells names from the root on, each behind a backslash. -/
def spelled (names : List GuestName) : List UInt8 :=
  names.flatMap (GuestName.backslash :: ·)

theorem segments_spelled
    (whole : ∀ name ∈ names, ∀ byte ∈ name, GuestName.isSeparator byte = false) :
    segments (spelled names) = [] :: names := by
  induction names with
  | nil => rfl
  | cons name more ih =>
    obtain ⟨here, whole⟩ := List.forall_mem_cons.mp whole
    have behind := segments_append here (ih whole)
    rw [List.append_nil] at behind
    exact segments_separator rfl behind

theorem dropLetter_spelled (names : List GuestName) :
    dropLetter (spelled names) = spelled names := by
  cases names with
  | nil => rfl
  | cons name more =>
    change dropLetter (GuestName.backslash :: (name ++ spelled more)) =
      GuestName.backslash :: (name ++ spelled more)
    cases name ++ spelled more with
    | nil => rfl
    | cons colon rest => rfl

theorem descend_of_name (filled : name ≠ []) (plain : name.IsPlain) (start : List GuestName) :
    descend start name = some (start ++ [name]) := by
  rw [descend, if_neg, if_neg plain.2]
  rintro (empty | dot)
  · exact filled empty
  · exact plain.1 dot

theorem foldlM_descend_of_names (named : ∀ name ∈ names, name ≠ [] ∧ name.IsPlain)
    (start : List GuestName) : names.foldlM descend start = some (start ++ names) := by
  induction names generalizing start with
  | nil => rw [List.append_nil]; rfl
  | cons name more ih =>
    obtain ⟨⟨filled, plain⟩, named⟩ := List.forall_mem_cons.mp named
    rw [List.foldlM_cons, descend_of_name filled plain]
    refine (ih named _).trans ?_
    rw [List.append_assoc, List.singleton_append]

/-- Names that are spelled from the root on are read back, no name at all as the current
directory. -/
theorem names_spelled (named : ∀ name ∈ names, name ≠ [] ∧ name.IsPlain)
    (whole : ∀ name ∈ names, ∀ byte ∈ name, GuestName.isSeparator byte = false)
    (short : (spelled names).length ≤ pathMax) :
    drive.names (spelled names) = .ok (if names = [] then drive.directory else names) := by
  have split := segments_spelled whole
  have start : (if startsAtRoot (spelled names) then [] else drive.directory) ++ names =
      if names = [] then drive.directory else names := by
    cases names with
    | nil => exact List.append_nil _
    | cons name more => rfl
  have followed : (segments (spelled names)).foldlM descend
      (if startsAtRoot (spelled names) then [] else drive.directory) =
        some (if names = [] then drive.directory else names) := by
    rw [split, List.foldlM_cons, ← start]
    exact foldlM_descend_of_names named _
  rw [Drive.names, if_neg (Nat.not_lt.mpr short)]
  dsimp only
  rw [dropLetter_spelled, followed]

theorem dropLetter_subset (guest : List UInt8) : dropLetter guest ⊆ guest := by
  unfold dropLetter
  split
  · split
    · exact fun byte h => List.mem_cons_of_mem _ (List.mem_cons_of_mem _ h)
    · exact fun _ h => h
  · exact fun _ h => h

theorem isNormal_of_mem_segments {segment : GuestName}
    (member : segment ∈ segments (dropLetter guest)) (filled : segment ≠ [])
    (plain : segment.IsPlain) : segment.IsNormal :=
  ⟨plain, filled, fun byte inside =>
    GuestName.isSeparator_eq_false_iff.mp (of_mem_segments member byte inside).2⟩

theorem proper_names (proper : ∀ name ∈ drive.directory, name.IsProper) (ended : 0 ∉ guest)
    (h : drive.names guest = .ok names) : ∀ name ∈ names, name.IsProper :=
  forall_names proper (fun _ member filled plain =>
    ⟨isNormal_of_mem_segments member filled plain,
      fun zero => ended (dropLetter_subset guest (of_mem_segments member 0 zero).1)⟩) h

theorem changeDirectory_eq_ok_iff {tree : HostTree} {next : Drive} :
    drive.changeDirectory tree guest = .ok next ↔ ∃ names, drive.names guest = .ok names ∧
      drive.encloses tree (drive.below names) = true ∧
      tree.isDirectory (drive.below names) = true ∧ next = { drive with directory := names } := by
  unfold changeDirectory
  constructor
  · intro h
    split at h
    · cases h
    next names read =>
      split at h
      · cases h
      next enclosed =>
        split at h
        · cases h
        next there =>
          cases h
          exact ⟨names, read, by simpa using enclosed, by simpa using there, rfl⟩
  · rintro ⟨names, read, enclosed, there, rfl⟩
    rw [read]
    dsimp only
    rw [enclosed, there]
    rfl

end Drive

theorem Service.proper_setDirectory {s : System}
    (proper : ∀ name ∈ s.kernel.drive.directory, name.IsProper) :
    ∀ name ∈ (setDirectory.after s).kernel.drive.directory, name.IsProper := by
  unfold setDirectory
  rcases Touches.after_bind (.argumentLong 2) _ s with same | ⟨addr, _, same⟩
  · rwa [same]
  rw [same]
  rcases Touches.after_bind (.pathAt addr) _ s with same | ⟨guest, found, same⟩
  · rwa [same]
  rw [same, after_get_bind]
  cases changed : s.kernel.drive.changeDirectory s.host guest with
  | error cause => exact proper
  | ok drive =>
    obtain ⟨names, read, _, _, rfl⟩ := Drive.changeDirectory_eq_ok_iff.mp changed
    obtain ⟨_, _, held⟩ := holdsString_of_pathAt found
    exact Drive.proper_names proper held.filled read

namespace Session

variable {s : Session} {ramTop : UInt32} {root : HostPath}

theorem proper_perform (proper : ∀ name ∈ s.system.kernel.drive.directory, name.IsProper)
    (action : Action) :
    ∀ name ∈ (s.perform action).system.kernel.drive.directory, name.IsProper := by
  by_cases moves : ∃ vector, action = .trap vector ∧
      Trap.routine s.system vector = .ok .setDirectory
  · obtain ⟨vector, rfl, asked⟩ := moves
    change ∀ name ∈ (Trap.serve vector s.system).2.kernel.drive.directory, name.IsProper
    obtain ⟨registers, same⟩ := Trap.after_serve asked
    rw [same, Routine.run, Service.after_map]
    exact Service.proper_setDirectory proper
  · rw [drive_perform fun vector trap asked => moves ⟨vector, trap, asked⟩]
    exact proper

theorem proper_performAll (created : Created ramTop root s) (actions : List Action) :
    ∀ name ∈ (s.performAll actions).system.kernel.drive.directory, name.IsProper := by
  refine performAll_induction
    (fun t => ∀ name ∈ t.system.kernel.drive.directory, name.IsProper) (fun _ => True)
    (fun _ action _ proper => proper_perform proper action) (fun _ _ => trivial) ?_
  obtain ⟨host, rfl⟩ := exists_of_created created
  exact fun _ member => absurd member List.not_mem_nil

end Session

end AtariTos
