import AtariTos.Proofs.PathResolution

namespace AtariTos

namespace Drive

open GuestName (backslash)

variable {drive : Drive} {directory guest : List UInt8} {names : List GuestName}

/-- A path from the root on: a backslash, and the names with backslashes between them. -/
def rendered (names : List GuestName) : List UInt8 :=
  0x5c :: [0x5c].intercalate names

theorem rendered_of_ne_nil (some : names ≠ []) : rendered names = spelled names := by
  induction names with
  | nil => exact absurd rfl some
  | cons name more ih =>
    cases more with
    | nil =>
      rw [rendered, List.intercalate_singleton, spelled, List.flatMap_singleton]
      rfl
    | cons next rest =>
      have behind : rendered (next :: rest) = spelled (next :: rest) :=
        ih (List.cons_ne_nil next rest)
      have step : spelled (name :: next :: rest) =
          (backslash :: name) ++ spelled (next :: rest) := List.flatMap_cons
      rw [step, ← behind, rendered, List.intercalate_cons_cons, List.append_assoc]
      rfl

theorem names_rendered (normal : ∀ name ∈ names, name.IsNormal)
    (short : (rendered names).length ≤ 256) : drive.names (rendered names) = .ok names := by
  by_cases none : names = []
  · subst none
    rfl
  · rw [rendered_of_ne_nil none] at short ⊢
    rw [names_spelled _ _ short, if_neg none]
    · intro name member
      exact ⟨(normal name member).filled, (normal name member).plain⟩
    · intro name member
      exact (normal name member).undivided

theorem segments_join (front rest : List UInt8) :
    segments (front ++ backslash :: rest) = segments front ++ segments rest := by
  induction front with
  | nil =>
    obtain ⟨first, more, split⟩ := exists_segments rest
    rw [List.nil_append, segments_separator rfl split, split]
    rfl
  | cons byte front ih =>
    obtain ⟨first, more, split⟩ := exists_segments front
    rw [List.cons_append, segments, ih, segments, split]
    cases GuestName.isSeparator byte <;> rfl

/-- A backslash is no colon, so that no drive letter comes up where two paths meet. -/
theorem dropLetter_join (front rest : List UInt8) :
    dropLetter (front ++ backslash :: rest) = dropLetter front ++ backslash :: rest := by
  match front with
  | [] =>
    cases rest with
    | nil => rfl
    | cons byte rest => rfl
  | [letter] =>
    have noColon : (isLetter letter && backslash = 0x3a) = false := by
      rw [Bool.and_eq_false_iff]
      exact .inr rfl
    show (if _ then _ else _) = _
    rw [noColon]
    rfl
  | letter :: colon :: more =>
    show (if _ then _ else _) = (if _ then _ else _) ++ _
    split <;> rfl

theorem startsAtRoot_append (some : directory ≠ []) (rest : List UInt8) :
    startsAtRoot (directory ++ rest) = startsAtRoot directory := by
  cases directory with
  | nil => exact absurd rfl some
  | cons byte more => rfl

theorem names_of_short (short : guest.length ≤ 256) :
    drive.names guest =
      match (segments (dropLetter guest)).foldlM descend
        (if startsAtRoot (dropLetter guest) then [] else drive.directory) with
      | none => .error .outside
      | some names => .ok names := by
  unfold Drive.names
  exact if_neg (Nat.not_lt.mpr short)

theorem names_join (some : dropLetter directory ≠ []) (plain : dropLetter guest = guest)
    (relative : startsAtRoot guest = false)
    (short : (directory ++ backslash :: guest).length ≤ 256) :
    drive.names (directory ++ backslash :: guest) =
      (drive.names directory).bind fun names => { drive with directory := names }.names guest := by
  have lengths : (directory ++ backslash :: guest).length = directory.length + (guest.length + 1) :=
    List.length_append
  have first : directory.length ≤ 256 := by omega
  have second : guest.length ≤ 256 := by omega
  rw [names_of_short short, names_of_short first, dropLetter_join, startsAtRoot_append some,
    segments_join, List.foldlM_append]
  cases (segments (dropLetter directory)).foldlM descend
    (if startsAtRoot (dropLetter directory) then [] else drive.directory) with
  | none => rfl
  | some names =>
    show _ = { drive with directory := names }.names guest
    rw [names_of_short second, plain, relative, if_neg Bool.false_ne_true]
    rfl

theorem translate_congr {other : Drive} {path : List UInt8} (root : other.root = drive.root)
    (read : other.names guest = drive.names path) (tree : HostTree) :
    other.translate tree guest = drive.translate tree path := by
  have below_eq (names : List GuestName) : other.below names = drive.below names := by
    rw [below, below, root]
  have encloses_eq (path : HostPath) : other.encloses tree path = drive.encloses tree path := by
    rw [encloses, encloses, root]
  unfold translate
  rw [read]
  cases drive.names path with
  | error cause => rfl
  | ok names =>
    dsimp only
    rw [below_eq, encloses_eq]

/-- Reading a guest path leaves names, none of them empty, a way or divided. Any such names, written
as a path from the root on, are read as these very names, on every drive; so what a path is read as
can be read again. A path is refused exactly if it climbs above the root by itself. And a path
behind a directory is read, and resolved, as the path alone is from that directory. All this is
meant for paths that are not too long. -/
theorem lexical_normal_form (reached : Reached drive) :
    (∀ guest names, drive.names guest = .ok names →
      (∀ name ∈ names, name.IsNormal) ∧
      ((rendered names).length ≤ 256 → drive.names (rendered names) = .ok names)) ∧
    (∀ names, (rendered names).length ≤ 256 →
      (drive.names (rendered names) = .ok names ↔ ∀ name ∈ names, name.IsNormal)) ∧
    (∀ guest, guest.length ≤ 256 → ∀ cause,
      drive.names guest = .error cause ↔ cause = .outside ∧ drive.ClimbsOut guest) ∧
    ∀ directory guest, dropLetter directory ≠ [] → dropLetter guest = guest →
      startsAtRoot guest = false → (directory ++ 0x5c :: guest).length ≤ 256 →
      drive.names (directory ++ 0x5c :: guest) =
        ((drive.names directory).bind fun names =>
          { drive with directory := names }.names guest) ∧
      ∀ tree next, drive.changeDirectory tree directory = .ok next →
        next.names guest = drive.names (directory ++ 0x5c :: guest) ∧
        ∀ later, next.translate later guest =
          drive.translate later (directory ++ 0x5c :: guest) := by
  have normal : ∀ {guest names}, drive.names guest = .ok names → ∀ name ∈ names, name.IsNormal :=
    fun read => normal_names reached.normal read
  refine ⟨fun guest names read => ⟨normal read, names_rendered (normal read)⟩,
    fun names short => ⟨normal, fun kept => names_rendered kept short⟩,
    fun guest short cause => ?_, fun directory guest some plain relative short => ?_⟩
  · rw [names_eq_error_iff]
    constructor
    · rintro (⟨_, long⟩ | ⟨outside, _, climbs⟩)
      · omega
      · exact ⟨outside, climbs⟩
    · rintro ⟨outside, climbs⟩
      exact .inr ⟨outside, short, climbs⟩
  · have joined : drive.names (directory ++ backslash :: guest) = _ :=
      names_join some plain relative short
    refine ⟨joined, fun tree next changed => ?_⟩
    obtain ⟨names, read, _, _, rfl⟩ := changeDirectory_eq_ok_iff.mp changed
    rw [read] at joined
    exact ⟨joined.symm, translate_congr rfl joined.symm⟩

/-- From `SUB` the path `C:X\\.\Y` leads to names that are read again, `..\..` is refused, and `X`
in the directory `..\SUB` is the same as `..\SUB\X`. -/
theorem lexical_normal_form_inSub :
    Reached inSub ∧
      inSub.names [0x43, 0x3a, 0x58, 0x5c, 0x5c, 0x2e, 0x5c, 0xe4] =
        .ok [[0x53, 0x55, 0x42], [0x58], [0xe4]] ∧
      inSub.names [0x5c, 0x53, 0x55, 0x42, 0x5c, 0x58, 0x5c, 0xe4] =
        .ok [[0x53, 0x55, 0x42], [0x58], [0xe4]] ∧
      inSub.names [0x2e, 0x2e, 0x5c, 0x2e, 0x2e] = .error .outside ∧
      inSub.changeDirectory plainHost [0x2e, 0x2e, 0x5c, 0x53, 0x55, 0x42] = .ok inSub ∧
      inSub.translate plainHost [0x58] =
        inSub.translate plainHost [0x2e, 0x2e, 0x5c, 0x53, 0x55, 0x42, 0x5c, 0x58] := by
  obtain ⟨again, _, escapes, joins⟩ := lexical_normal_form reached_inSub
  have read : inSub.names [0x43, 0x3a, 0x58, 0x5c, 0x5c, 0x2e, 0x5c, 0xe4] =
      .ok [[0x53, 0x55, 0x42], [0x58], [0xe4]] := by decide
  have climbs : inSub.ClimbsOut [0x2e, 0x2e, 0x5c, 0x2e, 0x2e] :=
    ⟨[GuestName.dotDot, GuestName.dotDot], ⟨[], by decide⟩, by decide⟩
  have moved : inSub.changeDirectory plainHost [0x2e, 0x2e, 0x5c, 0x53, 0x55, 0x42] =
      .ok inSub := by decide
  have joined := joins [0x2e, 0x2e, 0x5c, 0x53, 0x55, 0x42] [0x58] (by decide) (by decide)
    (by decide) (by decide)
  exact ⟨reached_inSub, read, (again _ _ read).2 (by decide),
    (escapes _ (by decide) .outside).mpr ⟨rfl, climbs⟩, moved,
    (joined.2 plainHost inSub moved).2 plainHost⟩

end Drive

end AtariTos
