import AtariTos.Proofs.BasepageBytes
import AtariTos.Proofs.BigEndian
import AtariTos.Proofs.DirectoryText

namespace AtariTos

theorem bytesOfLong_longOfBytes {bytes : List UInt8} (length : bytes.length = 4) :
    bytesOfLong (longOfBytes bytes) = bytes := by
  have spelled : Width.long.encode (longOfBytes bytes) = bytes := by
    refine List.ext_getElem? fun i => ?_
    by_cases inside : i < 4
    · exact (Width.getElem?_encode _ inside).trans (Width.getElem?_eq_byteOf length inside).symm
    · have short : (Width.long.encode (longOfBytes bytes)).length = 4 := Width.encode_length _ _
      rw [List.getElem?_eq_none (by omega), List.getElem?_eq_none (by omega)]
  exact spelled

theorem flatMap_range_pieces {α : Type} (list : List α) (n : Nat) :
    (List.range n).flatMap (fun i => (list.drop (4 * i)).take 4) = list.take (4 * n) := by
  induction n with
  | zero => simp
  | succ n ih =>
    rw [List.range_succ, List.flatMap_append, ih, List.flatMap_singleton, Nat.mul_succ,
      List.take_add]

theorem long?_getD {bytes : Bytes} {offset : Nat} (fits : offset + 4 ≤ bytes.size) :
    bytesOfLong ((Bytes.long? bytes offset).getD 0) = (bytes.toList.drop offset).take 4 := by
  have cut : (bytes.extract offset (offset + 4)).toList = (bytes.toList.drop offset).take 4 := by
    rw [Array.toList_extract, List.extract_eq_take_drop, Nat.add_sub_cancel_left]
  have length : ((bytes.toList.drop offset).take 4).length = 4 := by
    rw [List.length_take, List.length_drop, Array.length_toList]
    omega
  rw [Bytes.long?, Bytes.slice?, if_pos fits, Option.map_some, Option.getD_some, cut,
    bytesOfLong_longOfBytes length]

namespace Basepage

variable {bytes : Bytes} {page : Basepage}

theorem decode?_eq_none_iff : decode? bytes = none ↔ bytes.size < 256 := by
  unfold decode?
  split
  next long => exact iff_of_false (fun same => by cases same) (Nat.not_lt.mpr long)
  next short => exact iff_of_true rfl (Nat.lt_of_not_le short)

theorem parts_of_decode? (h : decode? bytes = some page) :
    256 ≤ bytes.size ∧
      page.longs = (List.range 12).map (fun i => (Bytes.long? bytes (4 * i)).getD 0) ∧
      page.undefined.toList = (bytes.toList.drop 48).take 80 ∧
      page.command.toList = (bytes.toList.drop 128).take 128 := by
  unfold decode? at h
  split at h
  next long =>
    cases h
    refine ⟨long, rfl, ?_, ?_⟩
    · change (bytes.extract 48 128).toList = _
      rw [Array.toList_extract, List.extract_eq_take_drop]
    · change (bytes.extract 128 256).toList = _
      rw [Array.toList_extract, List.extract_eq_take_drop]
  next short => cases h

theorem encode_of_decode? (h : decode? bytes = some page) :
    page.encode = bytes.toList.take 256 := by
  obtain ⟨long, longs, undefined, command⟩ := parts_of_decode? h
  have pieces : ∀ i ∈ List.range 12, bytesOfLong ((Bytes.long? bytes (4 * i)).getD 0) =
      (bytes.toList.drop (4 * i)).take 4 := by
    intro i member
    have below := List.mem_range.mp member
    exact long?_getD (by omega)
  rw [encode, longs, undefined, command, List.flatMap_map, List.flatMap_congr pieces,
    flatMap_range_pieces, ← List.take_add, ← List.take_add]

/-- The arguments in UTF-8, with one space between two of them. -/
def joined (args : List String) : List UInt8 :=
  [0x20].intercalate (args.map fun arg => arg.toUTF8.toList)

theorem joined_eq (args : List String) : (" ".intercalate args).toUTF8.toList = joined args := by
  rw [toList_toUTF8, String.toList_intercalate, joined]
  induction args with
  | nil => rfl
  | cons first rest ih =>
    cases rest with
    | nil =>
      rw [List.map_singleton, List.map_singleton, List.intercalate_singleton,
        List.intercalate_singleton, toList_toUTF8]
    | cons second rest =>
      have space : " ".toList.flatMap String.utf8EncodeChar = [0x20] := by decide
      rw [List.map_cons, List.map_cons, List.intercalate_cons_cons, List.flatMap_append,
        List.flatMap_append, space, ← toList_toUTF8, ← List.map_cons, ih, List.map_cons,
        List.map_cons, List.map_cons, List.intercalate_cons_cons]

theorem commandTail_eq (args : List String) : commandTail args = (joined args).take 125 := by
  rw [commandTail, joined_eq, commandTailMax]

theorem length_commandTail (args : List String) :
    (commandTail args).length = min 125 (joined args).length := by
  rw [commandTail_eq, List.length_take]

theorem length_commandTail_le (args : List String) : (commandTail args).length ≤ 125 := by
  rw [length_commandTail]
  exact Nat.min_le_left _ _

theorem command_zero (page : Basepage) (args : List String) :
    (page.withArguments args).command.get 0 = (commandTail args).length.toUInt8 :=
  (Vector.getElem_ofFn _).trans (if_pos rfl)

theorem command_succ (page : Basepage) (args : List String) {i : Nat} (h : i + 1 < 128) :
    (page.withArguments args).command[i + 1] = (commandTail args).getD i 0 := by
  rw [withArguments, Vector.getElem_ofFn, if_neg (Nat.succ_ne_zero i)]
  rfl

theorem toNat_command_zero (page : Basepage) (args : List String) :
    ((page.withArguments args).command.get 0).toNat = (commandTail args).length := by
  have short := length_commandTail_le args
  rw [command_zero, UInt8.toNat_ofNat']
  exact Nat.mod_eq_of_lt (by omega)

theorem tail_withArguments (page : Basepage) (args : List String) :
    (page.withArguments args).tail = commandTail args := by
  have short := length_commandTail_le args
  have length : (page.withArguments args).tail.length = (commandTail args).length := by
    have first := page.toNat_command_zero args
    change ((page.withArguments args).command[0]).toNat = _ at first
    rw [tail, first, commandTailMax, List.length_take, List.length_drop, Vector.length_toList]
    omega
  refine List.ext_getElem length fun i _ inside => ?_
  have place : i + 1 < 128 := by omega
  have spelled := command_succ page args place
  rw [List.getD_eq_getElem _ _ inside] at spelled
  simp only [tail, List.getElem_take, List.getElem_drop, Vector.getElem_toList, ← spelled,
    Nat.add_comm 1]

theorem command_of_lt (page : Basepage) {args : List String} {i : Fin 128}
    (after : (commandTail args).length < i.val) :
    (page.withArguments args).command.get i = 0 := by
  obtain ⟨_ | i, inside⟩ := i
  · exact absurd after (Nat.not_lt_zero _)
  · exact (command_succ page args inside).trans
      (List.getD_eq_default _ _ (Nat.le_of_lt_succ after))

/-- Every basepage comes back from its bytes and every 256 bytes come back from their basepage. A
command line that has been set comes back as far as it fits, and nothing else comes back with it. -/
theorem codec_laws :
    (∀ page : Basepage, page.encode.length = 256 ∧ decode? page.encode.toArray = some page) ∧
    (∀ bytes : Bytes,
      (256 ≤ bytes.size →
        ∃ page, decode? bytes = some page ∧ page.encode = bytes.toList.take 256) ∧
      (bytes.size < 256 → decode? bytes = none)) ∧
    ∀ (page : Basepage) (args : List String),
      ∃ seen, decode? (page.withArguments args).encode.toArray = some seen ∧
        seen.tail = (joined args).take 125 ∧
        (seen.command.get 0).toNat = min 125 (joined args).length ∧
        (∀ i, min 125 (joined args).length < i.val → seen.command.get i = 0) ∧
        seen = { page with command := seen.command } := by
  refine ⟨fun page => ⟨length_encode page, decode?_encode page⟩, fun bytes => ⟨?_, ?_⟩, ?_⟩
  · intro long
    have found : decode? bytes ≠ none := fun missing =>
      absurd (decode?_eq_none_iff.mp missing) (Nat.not_lt.mpr long)
    obtain ⟨page, decoded⟩ := Option.ne_none_iff_exists'.mp found
    exact ⟨page, decoded, encode_of_decode? decoded⟩
  · exact decode?_eq_none_iff.mpr
  · intro page args
    refine ⟨page.withArguments args, decode?_encode _, ?_, ?_, ?_, rfl⟩
    · rw [tail_withArguments, commandTail_eq]
    · rw [toNat_command_zero, length_commandTail]
    · intro i after
      rw [← length_commandTail] at after
      exact command_of_lt page after

/-- A short line takes the place of a longer one; a buffer may be longer than a basepage. -/
theorem codec_laws_shorter_line :
    256 ≤ (Array.replicate 300 (7 : UInt8)).size ∧
    (Array.replicate 255 (7 : UInt8)).size < 256 ∧
    decode? (Array.replicate 255 7) = none ∧
    (∃ page, decode? (Array.replicate 300 7) = some page ∧
      page.encode = (Array.replicate 300 7).toList.take 256) ∧
    ∃ seen,
      decode? (((layout 0x800 0xFA0000 0 0 0).withArguments ["-v", "FILE.TXT"]).withArguments
        ["-v"]).encode.toArray = some seen ∧
      seen.tail = [0x2D, 0x76] ∧ (seen.command.get 0).toNat = 2 ∧ seen.command.get 8 = 0 := by
  have length : (Array.replicate 300 (7 : UInt8)).size = 300 := Array.size_replicate
  have shorter : (Array.replicate 255 (7 : UInt8)).size = 255 := Array.size_replicate
  obtain ⟨-, codes, lines⟩ := codec_laws
  have long : 256 ≤ (Array.replicate 300 (7 : UInt8)).size := by omega
  have short : (Array.replicate 255 (7 : UInt8)).size < 256 := by omega
  have spelled : joined ["-v"] = [0x2D, 0x76] := by
    rw [joined, List.map_singleton, List.intercalate_singleton, toList_toUTF8]
    decide
  obtain ⟨seen, decoded, tail, first, zeros, -⟩ :=
    lines ((layout 0x800 0xFA0000 0 0 0).withArguments ["-v", "FILE.TXT"]) ["-v"]
  rw [spelled] at tail first zeros
  exact ⟨long, short, (codes _).2 short, (codes _).1 long, seen, decoded, tail, first,
    zeros 8 (by decide)⟩

end Basepage

end AtariTos
