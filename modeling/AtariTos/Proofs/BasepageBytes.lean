import AtariTos.Program.Basepage
import AtariTos.Proofs.MemoryReads

namespace AtariTos

theorem longOfBytes_bytesOfLong (value : UInt32) : longOfBytes (bytesOfLong value) = value :=
  longOfBytes_encode value

theorem length_flatMap_bytesOfLong (longs : List UInt32) :
    (longs.flatMap bytesOfLong).length = 4 * longs.length := by
  induction longs with
  | nil => rfl
  | cons value rest ih =>
    rw [List.flatMap_cons, List.length_append, ih, List.length_cons]
    change 4 + 4 * rest.length = _
    omega

theorem longOfBytes_flatMap (longs : List UInt32) (rest : List UInt8) {i : Nat}
    (h : i < longs.length) :
    longOfBytes (((longs.flatMap bytesOfLong ++ rest).drop (4 * i)).take 4) = longs[i] := by
  induction longs generalizing i with
  | nil => cases h
  | cons value longs ih =>
    rw [List.flatMap_cons, List.append_assoc]
    cases i with
    | zero => exact longOfBytes_bytesOfLong value
    | succ i =>
      rw [List.length_cons] at h
      have behind : (bytesOfLong value ++ (longs.flatMap bytesOfLong ++ rest)).drop (4 * (i + 1)) =
          (longs.flatMap bytesOfLong ++ rest).drop (4 * i) := by
        have place : 4 * (i + 1) = 4 * i + (bytesOfLong value).length := by
          change _ = 4 * i + 4
          omega
        rw [place, Nat.add_comm, ← List.drop_drop, List.drop_left]
      rw [behind, List.getElem_cons_succ]
      exact ih (by omega)

namespace Basepage

theorem length_longs (page : Basepage) : (page.longs.flatMap bytesOfLong).length = 48 :=
  length_flatMap_bytesOfLong page.longs

theorem length_encode (page : Basepage) : page.encode.length = 256 := by
  rw [encode, List.length_append, List.length_append, length_longs, Vector.length_toList,
    Vector.length_toList]

theorem long_encode (page : Basepage) {i : Nat} (h : i < 12) :
    (Bytes.long? page.encode.toArray (4 * i)).getD 0 = page.longs.getD i 0 := by
  have inside : i < page.longs.length := h
  have fits : 4 * i + 4 ≤ page.encode.toArray.size := by
    rw [List.size_toArray, length_encode]
    omega
  rw [Bytes.long?, Bytes.slice?, if_pos fits, Option.map_some, Option.getD_some,
    Array.toList_extract, List.extract_eq_take_drop, Nat.add_sub_cancel_left, encode,
    List.append_assoc, longOfBytes_flatMap page.longs _ inside]
  exact (List.getElem_eq_getD 0)

theorem decode?_encode (page : Basepage) : decode? page.encode.toArray = some page := by
  have size : basepageLen ≤ page.encode.toArray.size := by
    rw [List.size_toArray, length_encode]
    exact Nat.le_refl _
  have reserved : page.encode.toArray.extract 48 128 = page.undefined.toArray := by
    apply Array.ext'
    rw [Array.toList_extract, List.extract_eq_take_drop, encode, List.append_assoc,
      List.drop_left' (length_longs page), List.take_left' Vector.length_toList]
    rfl
  have command : page.encode.toArray.extract 128 256 = page.command.toArray := by
    have before : (page.longs.flatMap bytesOfLong ++ page.undefined.toList).length = 128 := by
      rw [List.length_append, length_longs, Vector.length_toList]
    apply Array.ext'
    rw [Array.toList_extract, List.extract_eq_take_drop, encode, List.drop_left' before,
      List.take_of_length_le (Nat.le_of_eq Vector.length_toList)]
    rfl
  unfold decode?
  rw [dif_pos size]
  simp (disch := omega) only [reserved, command, long_encode]
  rfl

end Basepage

end AtariTos
