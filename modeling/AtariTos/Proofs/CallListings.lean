import AtariTos.Calls.Catalogue
import AtariTos.Report
import Mathlib.Tactic.IntervalCases
import Std.Data.HashMap.Lemmas

namespace AtariTos

def digitValue (digit : Char) : Nat :=
  if digit.toNat < 58 then digit.toNat - 48 else digit.toNat - 87

/-- The number that hexadecimal digits spell. -/
def hexValue (digits : List Char) : Nat :=
  digits.foldl (fun value digit => 16 * value + digitValue digit) 0

theorem digitValue_digitChar {d : Nat} (h : d < 16) : digitValue d.digitChar = d := by
  interval_cases d <;> rfl

theorem hexValue_concat (digits : List Char) (digit : Char) :
    hexValue (digits ++ [digit]) = 16 * hexValue digits + digitValue digit := by
  simp [hexValue]

theorem hexValue_toDigits (n : Nat) : hexValue (Nat.toDigits 16 n) = n := by
  induction n using Nat.strongRecOn with
  | ind n ih =>
    rw [Nat.toDigits_eq_if (by decide)]
    split
    next small => simp [hexValue, digitValue_digitChar small]
    next large =>
      have smaller := ih (n / 16) (by omega)
      rw [hexValue_concat, smaller, digitValue_digitChar (by omega)]
      omega

theorem hexValue_zeros (count : Nat) (digits : List Char) :
    hexValue (List.replicate count '0' ++ digits) = hexValue digits := by
  induction count with
  | zero => rfl
  | succ count ih => exact ih

theorem hexValue_hex (width n : Nat) : hexValue (hex width n).toList = n := by
  rw [hex, String.toList_ofList, hexValue_zeros, hexValue_toDigits]

theorem space_notMem_toDigits (n : Nat) : ' ' ∉ Nat.toDigits 16 n := by
  have other (d : Nat) : ' ' ≠ d.digitChar := (Nat.digitChar_ne ' ' (by decide)).symm
  induction n using Nat.strongRecOn with
  | ind n ih =>
    rw [Nat.toDigits_eq_if (by decide)]
    split
    · simp [other]
    · simp [other, ih (n / 16) (by omega)]

theorem space_notMem_hex (width n : Nat) : ' ' ∉ (hex width n).toList := by
  rw [hex, String.toList_ofList, List.mem_append, List.mem_replicate]
  rintro (⟨_, zero⟩ | digit)
  · cases zero
  · exact space_notMem_toDigits n digit

namespace CallTable

variable {α : Type} {table : CallTable α} {code : UInt16} {call : Call α}

/-- The first of the calls that are declared with a code. -/
def Declares (table : CallTable α) (code : UInt16) (call : Call α) : Prop :=
  ∃ before after, table.calls = before ++ call :: after ∧ call.code = code ∧
    ∀ other ∈ before, other.code ≠ code

/-- The place of a call in the table, by its code. A code that has a place already keeps it. -/
def index (table : CallTable α) : Std.HashMap UInt16 Nat :=
  table.calls.zipIdx.foldl (fun places entry => places.insertIfNew entry.1.code entry.2) ∅

theorem find?_eq_some_iff : table.find? code = some call ↔ table.Declares code call := by
  rw [find?, List.find?_eq_some_iff_append]
  simp only [decide_eq_true_eq, Declares]
  constructor
  · rintro ⟨same, before, after, split, others⟩
    exact ⟨before, after, split, same, fun other member => by simpa using others other member⟩
  · rintro ⟨before, after, split, same, others⟩
    exact ⟨same, before, after, split, fun other member => by simpa using others other member⟩

theorem find?_eq_none_iff : table.find? code = none ↔ ∀ call ∈ table.calls, call.code ≠ code := by
  simp [find?]

theorem getElem?_foldl_index (calls : List (Call α)) (start : Nat)
    (places : Std.HashMap UInt16 Nat) (code : UInt16) :
    ((calls.zipIdx start).foldl
        (fun places entry => places.insertIfNew entry.1.code entry.2) places)[code]? =
      (places[code]?).or ((calls.findIdx? (·.code = code)).map (start + ·)) := by
  induction calls generalizing start places with
  | nil => simp
  | cons call rest ih =>
    rw [List.zipIdx_cons, List.foldl_cons, ih, Std.HashMap.getElem?_insertIfNew, List.findIdx?_cons]
    by_cases here : call.code = code
    · subst here
      by_cases known : call.code ∈ places <;> simp [known]
    · have later : ∀ place, start + 1 + place = start + (place + 1) := fun place => by omega
      simp [here, later, Function.comp_def]

theorem getElem?_index (table : CallTable α) (code : UInt16) :
    table.index[code]? = table.calls.findIdx? (·.code = code) := by
  rw [index, getElem?_foldl_index]
  simp

theorem map_index (table : CallTable α) (code : UInt16) :
    (table.index[code]?).map (table.calls[·]?) = (table.find? code).map some := by
  rw [getElem?_index]
  cases found : table.find? code with
  | none =>
    have missing := find?_eq_none_iff.mp found
    rw [List.findIdx?_eq_none_iff.mpr fun call member => by simpa using missing call member]
    rfl
  | some call =>
    obtain ⟨before, after, split, same, others⟩ := find?_eq_some_iff.mp found
    have place : table.calls.findIdx? (·.code = code) = some before.length := by
      rw [split, List.findIdx?_append, List.findIdx?_eq_none_iff.mpr fun other member => by
        simpa using others other member]
      simp [List.findIdx?_cons, same]
    have there : table.calls[before.length]? = some call := by
      rw [split, List.getElem?_append_right (Nat.le_refl _), Nat.sub_self, List.getElem?_cons_zero]
    rw [place, Option.map_some, there, Option.map_some]

theorem handler_of_declares (declared : table.Declares code call) :
    table.handler code =
      match call.handler with
      | some handler => .ok handler
      | none => .error (.noHandler table.layer call.name code) := by
  have found := find?_eq_some_iff.mpr declared
  cases handled : call.handler with
  | none => simp only [handler, found, handled]
  | some routine => simp only [handler, found, handled]

theorem handler_eq_undocumented_iff :
    table.handler code = .error (.undocumented table.layer code) ↔
      ∀ call ∈ table.calls, call.code ≠ code := by
  rw [← find?_eq_none_iff, handler]
  cases table.find? code with
  | none => exact iff_of_true rfl rfl
  | some call =>
    refine iff_of_false ?_ (fun same => by cases same)
    dsimp only
    cases call.handler <;> exact fun same => by cases same

theorem code_le_trans (a b c : Call α) (ab : decide (a.code ≤ b.code) = true)
    (bc : decide (b.code ≤ c.code) = true) : decide (a.code ≤ c.code) = true := by
  simp only [decide_eq_true_eq] at ab bc ⊢
  exact UInt16.le_trans ab bc

theorem code_le_total (a b : Call α) :
    (decide (a.code ≤ b.code) || decide (b.code ≤ a.code)) = true := by
  simpa using UInt16.le_total a.code b.code

theorem sorted_perm (table : CallTable α) : table.sorted.Perm table.calls :=
  List.mergeSort_perm _ _

theorem pairwise_sorted (table : CallTable α) : table.sorted.Pairwise (·.code ≤ ·.code) := by
  have ordered := List.pairwise_mergeSort code_le_trans code_le_total table.calls
  exact ordered.imp fun {_ _} le => of_decide_eq_true le

theorem filter_sorted (table : CallTable α) (code : UInt16) :
    table.sorted.filter (·.code = code) = table.calls.filter (·.code = code) := by
  have level : (table.calls.filter (·.code = code)).Pairwise
      fun a b => decide (a.code ≤ b.code) = true := by
    have equal : ∀ call ∈ table.calls.filter (·.code = code), call.code = code :=
      fun call member => by simpa using (List.mem_filter.mp member).2
    refine List.pairwise_of_forall_mem_list fun a first b second => ?_
    rw [equal a first, equal b second]
    exact decide_eq_true (UInt16.le_refl code)
  have kept : (table.calls.filter (·.code = code)).Sublist table.sorted :=
    List.sublist_mergeSort code_le_trans code_le_total level List.filter_sublist
  have inside := kept.filter (·.code = code)
  simp only [List.filter_filter, Bool.and_self] at inside
  have length := (table.sorted_perm.filter (·.code = code)).length_eq
  exact (inside.eq_of_length length.symm).symm

theorem find?_sorted (table : CallTable α) (code : UInt16) :
    table.sorted.find? (·.code = code) = table.find? code := by
  rw [find?, ← List.head?_filter, ← List.head?_filter, filter_sorted]

end CallTable

namespace Report

variable {α : Type}

/-- A line of a listing starts with the code in hexadecimal and two spaces. -/
def isLineOf (code : UInt16) (line : String) : Bool :=
  s!"0x{hex 3 code.toNat}  ".toList.isPrefixOf line.toList

theorem takeWhile_code (code : UInt16) (rest : List Char) :
    ("0x".toList ++ (hex 3 code.toNat).toList ++ ' ' :: rest).takeWhile (· ≠ ' ') =
      "0x".toList ++ (hex 3 code.toNat).toList := by
  have marked : ∀ c ∈ "0x".toList ++ (hex 3 code.toNat).toList, decide (c ≠ ' ') = true := by
    intro c member
    rw [decide_eq_true_eq]
    rintro rfl
    rcases List.mem_append.mp member with start | digit
    · exact absurd start (by decide)
    · exact space_notMem_hex 3 code.toNat digit
  rw [List.takeWhile_append_of_pos marked]
  simp

theorem toList_call (call : Call α) : ∃ rest,
    (Report.call call).toList =
      "0x".toList ++ (hex 3 call.code.toNat).toList ++ ' ' :: ' ' :: rest := by
  refine ⟨(padRight 26 call.name ++ " " ++ callStatus call).toList, ?_⟩
  have spelled : Report.call call =
      "0x" ++ hex 3 call.code.toNat ++ "  " ++ padRight 26 call.name ++ " " ++ callStatus call := rfl
  simp [spelled, String.toList_append]

theorem isLineOf_call (code : UInt16) (call : Call α) :
    isLineOf code (Report.call call) = decide (call.code = code) := by
  obtain ⟨rest, line⟩ := toList_call call
  have start : s!"0x{hex 3 code.toNat}  ".toList =
      "0x".toList ++ (hex 3 code.toNat).toList ++ [' ', ' '] := by
    have spelled : s!"0x{hex 3 code.toNat}  " = "0x" ++ hex 3 code.toNat ++ "  " := rfl
    simp [spelled, String.toList_append]
  rw [isLineOf, start, line]
  by_cases same : call.code = code
  · subst same
    simp
  · rw [decide_eq_false same, Bool.eq_false_iff, ne_eq, List.isPrefixOf_iff_prefix]
    rintro ⟨more, whole⟩
    rw [List.append_assoc] at whole
    -- up to the first space both lines are the code and nothing else
    have spelled : "0x".toList ++ (hex 3 code.toNat).toList =
        "0x".toList ++ (hex 3 call.code.toNat).toList :=
      calc _
        _ = _ := (takeWhile_code code (' ' :: more)).symm
        _ = _ := congrArg (List.takeWhile (· ≠ ' ')) whole
        _ = _ := takeWhile_code call.code (' ' :: rest)
    have digits := congrArg hexValue (List.append_cancel_left spelled)
    rw [hexValue_hex, hexValue_hex] at digits
    exact same (UInt16.toNat_inj.mp digits.symm)

theorem find?_calls (table : CallTable α) (code : UInt16) :
    (Report.calls table).find? (isLineOf code) = (table.find? code).map Report.call := by
  have lines : isLineOf code ∘ Report.call = fun call : Call α => decide (call.code = code) :=
    funext fun call => isLineOf_call code call
  rw [Report.calls, List.find?_map, lines, CallTable.find?_sorted]

end Report

namespace CallTable

variable {α : Type}

/-- Looking up and listing agree. The first call that is declared with a code is the one found, by a
search and by the index, and its handler decides how it is dispatched; there is nothing to be found
exactly when no call has the code. The listing has a line for every call, in ascending order of the
codes and for equal codes in order of declaration, so that the first line for a code names the call
that is dispatched and tells whether it has a handler. -/
theorem lookup_agrees_with_listing (table : CallTable α) :
    (∀ code call, table.Declares code call →
      table.find? code = some call ∧
      table.handler code =
        (match call.handler with
        | some handler => .ok handler
        | none => .error (.noHandler table.layer call.name code)) ∧
      (Report.calls table).find? (Report.isLineOf code) =
        some (s!"0x{hex 3 code.toNat}  {Report.padRight 26 call.name} " ++
          if (table.handler code).isOk then "implemented" else "halts")) ∧
    (∀ code,
      (table.handler code = .error (.undocumented table.layer code) ↔
        ∀ call ∈ table.calls, call.code ≠ code) ∧
      ((Report.calls table).find? (Report.isLineOf code) = none ↔
        ∀ call ∈ table.calls, call.code ≠ code) ∧
      (table.index[code]?).map (table.calls[·]?) = (table.find? code).map some) ∧
    ∃ listed : List (Call α), Report.calls table = listed.map Report.call ∧
      listed.Perm table.calls ∧ listed.Pairwise (·.code ≤ ·.code) ∧
      ∀ code, listed.filter (·.code = code) = table.calls.filter (·.code = code) := by
  refine ⟨fun code call declared => ?_,
    fun code => ⟨handler_eq_undocumented_iff, ?_, table.map_index code⟩,
    table.sorted, rfl, table.sorted_perm, table.pairwise_sorted, table.filter_sorted⟩
  · have found := find?_eq_some_iff.mpr declared
    have handled := handler_of_declares declared
    have status : (table.handler code).isOk = call.isServiced := by
      rw [handled, Call.isServiced]
      cases call.handler <;> rfl
    obtain ⟨_, _, _, rfl, _⟩ := declared
    refine ⟨found, handled, ?_⟩
    rw [Report.find?_calls, found, status]
    rfl
  · rw [Report.find?_calls, Option.map_eq_none_iff]
    exact find?_eq_none_iff

/-- Of two calls with one code the listing starts with the one that is dispatched. -/
theorem lookup_agrees_with_listing_setscreen :
    Catalogue.xbios.find? 0x05 = some (.named "Setscreen" 0x05) ∧
      Catalogue.xbios.handler 0x05 = .error (.noHandler .xbios "Setscreen" 0x05) ∧
      (Report.calls Catalogue.xbios).find? (Report.isLineOf 0x05) =
        some "0x005  Setscreen                  halts" := by
  have declared : Catalogue.xbios.Declares 0x05 (.named "Setscreen" 0x05) :=
    ⟨Catalogue.xbios.calls.take 5, Catalogue.xbios.calls.drop 6, rfl, rfl, by decide⟩
  obtain ⟨found, handled, line⟩ :=
    (lookup_agrees_with_listing Catalogue.xbios).1 0x05 (.named "Setscreen" 0x05) declared
  refine ⟨found, handled, line.trans ?_⟩
  rw [handled]
  decide

end CallTable

end AtariTos
