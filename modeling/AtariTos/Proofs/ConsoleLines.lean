import AtariTos.Calls.Console
import Mathlib.Data.List.DropRight

namespace AtariTos

namespace Console

variable {max : Nat} {byte : UInt8} {input rest line other : List UInt8}

/-- A beginning of the input at which reading may stop: it ends in a newline, it has as many bytes
as are asked for, or it is all there is. -/
structure Completes (max : Nat) (input line : List UInt8) : Prop where
  start : line <+: input
  ending : line.getLast? = some newline ∨ line.length = max ∨ line = input

/-- The shortest beginning of the input at which reading may stop. -/
structure IsLine (max : Nat) (input line : List UInt8) : Prop where
  completes : Completes max input line
  shortest : ∀ other, Completes max input other → line.length ≤ other.length

theorem isLine_nil (h : Completes max input []) : IsLine max input [] :=
  ⟨h, fun _ _ => Nat.zero_le _⟩

theorem completes_cons_iff (inner : byte ≠ newline) :
    Completes (max + 1) (byte :: rest) other ↔
      ∃ line, other = byte :: line ∧ Completes max rest line := by
  constructor
  · rintro ⟨start, ending⟩
    cases other with
    | nil => simp at ending
    | cons first line =>
      obtain ⟨rfl, start'⟩ := List.cons_prefix_cons.mp start
      refine ⟨line, rfl, start', ?_⟩
      rcases ending with last | full | whole
      · left
        cases line with
        | nil => exact absurd (Option.some.inj last) inner
        | cons second line => rwa [List.getLast?_cons_cons] at last
      · exact .inr (.inl (Nat.succ.inj full))
      · exact .inr (.inr (List.cons.inj whole).2)
  · rintro ⟨line, rfl, start, ending⟩
    refine ⟨List.cons_prefix_cons.mpr ⟨rfl, start⟩, ?_⟩
    rcases ending with last | full | whole
    · left
      rw [List.getLast?_cons, last]
      rfl
    · exact .inr (.inl (congrArg Nat.succ full))
    · exact .inr (.inr (congrArg (byte :: ·) whole))

theorem isLine_splitLine (max : Nat) (input : List UInt8) :
    IsLine max input (splitLine max input).1 := by
  induction input generalizing max with
  | nil =>
    have nothing : (splitLine max []).1 = [] := by cases max <;> rfl
    rw [nothing]
    exact isLine_nil ⟨List.prefix_refl [], .inr (.inr rfl)⟩
  | cons byte rest ih =>
    cases max with
    | zero => exact isLine_nil ⟨List.nil_prefix, .inr (.inl rfl)⟩
    | succ max =>
      rw [splitLine]
      split
      next ends =>
        subst ends
        refine ⟨⟨⟨rest, rfl⟩, .inl rfl⟩, fun other completes => ?_⟩
        cases other with
        | nil => exact absurd completes.ending (by simp)
        | cons _ _ => exact Nat.le_add_left 1 _
      next inner =>
        obtain ⟨completes, shortest⟩ := ih max
        refine ⟨(completes_cons_iff inner).mpr ⟨_, rfl, completes⟩, fun other h => ?_⟩
        obtain ⟨line, rfl, h'⟩ := (completes_cons_iff inner).mp h
        exact Nat.succ_le_succ (shortest line h')

theorem splitLine_of_newline (inner : newline ∉ line) (short : line.length < max)
    (rest : List UInt8) : splitLine max (line ++ newline :: rest) = (line ++ [newline], rest) := by
  induction line generalizing max with
  | nil =>
    cases max with
    | zero => exact absurd short (Nat.lt_irrefl 0)
    | succ max => exact if_pos rfl
  | cons byte line ih =>
    cases max with
    | zero => exact absurd short (Nat.not_lt_zero _)
    | succ max =>
      obtain ⟨other, inner⟩ := not_or.mp (mt List.mem_cons.mpr inner)
      rw [List.cons_append, splitLine, if_neg (Ne.symm other),
        ih inner (Nat.lt_of_succ_lt_succ short)]
      rfl

theorem splitLine_of_full (inner : newline ∉ line) (rest : List UInt8) :
    splitLine line.length (line ++ rest) = (line, rest) := by
  induction line with
  | nil => rfl
  | cons byte line ih =>
    obtain ⟨other, inner⟩ := not_or.mp (mt List.mem_cons.mpr inner)
    rw [List.length_cons, List.cons_append, splitLine, if_neg (Ne.symm other), ih inner]

/-- The pieces in which a line and its newline are read. The newline is read with the line only if
that leaves room for it. -/
def pieces (max : Nat) (line : List UInt8) : List (List UInt8) :=
  if line.length < max then [line ++ [newline]] else [line, [newline]]

/-- What is kept of these pieces. -/
def texts (max : Nat) (line : List UInt8) : List (List UInt8) :=
  if line.length < max then [line] else [line, []]

theorem flatten_pieces (max : Nat) (line : List UInt8) :
    (pieces max line).flatten = line ++ [newline] := by
  rw [pieces]
  split
  · rw [List.flatten_singleton]
  · rw [List.flatten_cons, List.flatten_singleton]

theorem length_pieces (max : Nat) (line : List UInt8) :
    (pieces max line).length = (texts max line).length := by
  rw [pieces, texts]
  split <;> rfl

theorem splitLine_of_mem_pieces (positive : 0 < max) (inner : newline ∉ line)
    (short : line.length ≤ max) {piece : List UInt8} (member : piece ∈ pieces max line)
    (rest : List UInt8) : splitLine max (piece ++ rest) = (piece, rest) := by
  rw [pieces] at member
  split at member
  next room =>
    obtain rfl := List.mem_singleton.mp member
    rw [List.append_assoc]
    exact splitLine_of_newline inner room rest
  next full =>
    obtain rfl : line.length = max := by omega
    rcases List.mem_pair.mp member with rfl | rfl
    · exact splitLine_of_full inner rest
    · exact splitLine_of_newline List.not_mem_nil positive rest

theorem ne_nil_of_mem_pieces (positive : 0 < max) {piece : List UInt8}
    (member : piece ∈ pieces max line) : piece ≠ [] := by
  rw [pieces] at member
  split at member
  · obtain rfl := List.mem_singleton.mp member
    exact List.concat_ne_nil newline line
  next full =>
    rcases List.mem_pair.mp member with rfl | rfl
    · exact fun empty => full (by rwa [empty])
    · exact List.cons_ne_nil _ _

/-- The pieces of all lines are the input they come from. -/
theorem flatten_flatMap_pieces (max : Nat) (lines : List (List UInt8)) :
    (lines.flatMap (pieces max)).flatten = lines.flatMap (· ++ [newline]) := by
  induction lines with
  | nil => rfl
  | cons line lines ih =>
    rw [List.flatMap_cons, List.flatten_append, flatten_pieces, ih, List.flatMap_cons]

theorem length_flatMap_pieces (max : Nat) (lines : List (List UInt8)) :
    (lines.flatMap (pieces max)).length = (lines.flatMap (texts max)).length := by
  rw [List.length_flatMap, List.length_flatMap]
  exact congrArg List.sum (List.map_congr_left fun line _ => length_pieces max line)

/-- No piece is empty, so that nothing is left only when all pieces have been read. -/
theorem flatten_drop_pieces_eq_nil_iff (positive : 0 < max) {lines : List (List UInt8)}
    {count : Nat} : ((lines.flatMap (pieces max)).drop count).flatten = [] ↔
      (lines.flatMap (texts max)).length ≤ count := by
  rw [List.flatten_eq_nil_iff, ← length_flatMap_pieces, ← List.drop_eq_nil_iff]
  refine ⟨fun empty => ?_, fun none piece member => ?_⟩
  · refine List.eq_nil_iff_forall_not_mem.mpr fun piece member => ?_
    obtain ⟨line, _, there⟩ := List.mem_flatMap.mp (List.mem_of_mem_drop member)
    exact ne_nil_of_mem_pieces positive there (empty piece member)
  · rw [none] at member
    cases member

theorem length_le_flatMap_texts (max : Nat) (lines : List (List UInt8)) :
    lines.length ≤ (lines.flatMap (texts max)).length := by
  induction lines with
  | nil => exact Nat.le_refl 0
  | cons line lines ih =>
    have filled : 1 ≤ (texts max line).length := by
      rw [texts]
      split <;> simp
    rw [List.flatMap_cons, List.length_append, List.length_cons]
    omega

theorem flatMap_texts_of_short {lines : List (List UInt8)}
    (short : ∀ line ∈ lines, line.length < max) : lines.flatMap (texts max) = lines := by
  induction lines with
  | nil => rfl
  | cons line lines ih =>
    obtain ⟨first, rest⟩ := List.forall_mem_cons.mp short
    rw [List.flatMap_cons, texts, if_pos first, ih rest]
    rfl

/-- No more texts are kept than there are lines exactly if there is room for every newline. -/
theorem length_flatMap_texts_le_iff {lines : List (List UInt8)} :
    (lines.flatMap (texts max)).length ≤ lines.length ↔ ∀ line ∈ lines, line.length < max := by
  refine ⟨fun few => ?_, fun short => ?_⟩
  · induction lines with
    | nil => exact List.forall_mem_nil _
    | cons line lines ih =>
      have more := length_le_flatMap_texts max lines
      rw [List.flatMap_cons, List.length_append, List.length_cons, texts] at few
      split at few
      next room =>
        rw [List.length_singleton] at few
        exact List.forall_mem_cons.mpr ⟨room, ih (by omega)⟩
      next full =>
        rw [List.length_cons, List.length_singleton] at few
        omega
  · rw [flatMap_texts_of_short short]

end Console

namespace Service

def endsLine (byte : UInt8) : Bool :=
  byte = Console.newline || byte = Console.carriageReturn

/-- All that a line has before the run of newlines and carriage returns at its end. -/
structure Trims (line text : List UInt8) : Prop where
  ending : ∃ run, line = text ++ run ∧ ∀ byte ∈ run, endsLine byte = true
  maximal : ∀ byte, text.getLast? = some byte → endsLine byte = false

theorem trimLine_eq (line : List UInt8) : trimLine line = line.rdropWhile endsLine :=
  rfl

theorem trims_trimLine (line : List UInt8) : Trims line (trimLine line) := by
  rw [trimLine_eq]
  refine ⟨⟨line.rtakeWhile endsLine, ?_, fun byte h => List.mem_rtakeWhile_imp h⟩, ?_⟩
  · rw [List.rdropWhile_append_rtakeWhile]
  · intro byte last
    have filled : line.rdropWhile endsLine ≠ [] := fun empty => by
      rw [empty] at last
      cases last
    rw [List.getLast?_eq_some_getLast filled] at last
    obtain rfl := Option.some.inj last
    exact Bool.eq_false_iff.mpr (List.rdropWhile_last_not endsLine line filled)

theorem trimLine_append {text run : List UInt8} (clean : ∀ byte ∈ text, endsLine byte = false)
    (ends : ∀ byte ∈ run, endsLine byte = true) : trimLine (text ++ run) = text := by
  rw [trimLine_eq]
  induction run using List.reverseRecOn with
  | nil =>
    rw [List.append_nil, List.rdropWhile_eq_self_iff]
    intro filled last
    rw [clean _ (List.getLast_mem filled)] at last
    cases last
  | append_singleton run byte ih =>
    rw [List.forall_mem_append, List.forall_mem_singleton] at ends
    rw [← List.append_assoc, List.rdropWhile_concat_pos _ _ _ ends.2, ih ends.1]

theorem trimLine_pieces {line : List UInt8} (newline : Console.newline ∉ line)
    (carriageReturn : Console.carriageReturn ∉ line) (max : Nat) :
    (Console.pieces max line).map trimLine = Console.texts max line := by
  have clean : ∀ byte ∈ line, endsLine byte = false := by
    intro byte member
    have other : byte ≠ Console.newline := fun same => newline (same ▸ member)
    have other' : byte ≠ Console.carriageReturn := fun same => carriageReturn (same ▸ member)
    simp only [endsLine, other, other', decide_false, Bool.or_self]
  have ended : trimLine (line ++ [Console.newline]) = line :=
    trimLine_append clean (List.forall_mem_singleton.mpr rfl)
  have full : trimLine line = line := by
    rw [← List.append_nil line, trimLine_append clean (List.forall_mem_nil _)]
    exact (List.append_nil line).symm
  rw [Console.pieces, Console.texts]
  split
  · exact congrArg ([·]) ended
  · exact congrArg ([·, []]) full

end Service

end AtariTos
