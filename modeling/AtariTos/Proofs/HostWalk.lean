import AtariTos.Proofs.HostEntries

namespace AtariTos

namespace HostTree

variable {tree grown : HostTree} {follow : Bool} {links id : Nat} {dir p q : HostPath} {n : String}
  {rest names : List String} {place : Place} {e : HostEntry}

/-- Where a link leads on from a directory. -/
def redirect (dir : HostPath) (target : String) : HostPath :=
  if HostPath.isAbsolute target then [] else dir

theorem walk_eq : tree.walk follow links dir names =
    match tree.advance follow dir names with
    | .arrived place => .ok place
    | .failed cause => .error cause
    | .redirected reached target rest =>
      match links with
      | 0 => .error .tooManyLinks
      | left + 1 =>
        tree.walk follow left (redirect reached target) (HostPath.names target ++ rest) := by
  rw [walk.eq_def]
  dsimp only
  cases tree.advance follow dir names with
  | arrived place | failed cause => rfl
  | redirected reached target rest => cases links <;> rfl

theorem walk_nil : tree.walk follow links dir [] =
    .ok (.found dir ((tree.at? dir).getD (.directory false))) := by
  rw [walk_eq, advance.eq_def]

theorem walk_dot :
    tree.walk follow links dir ("." :: rest) = tree.walk follow links dir rest := by
  rw [walk_eq, walk_eq, advance.eq_def]
  rfl

theorem walk_up :
    tree.walk follow links dir (".." :: rest) = tree.walk follow links dir.dropLast rest := by
  rw [walk_eq, walk_eq, advance.eq_def]
  rfl

theorem walk_name (dot : n ≠ ".") (up : n ≠ "..") :
    tree.walk follow links dir (n :: rest) =
      if '\x00' ∈ n.toList then .error .zeroInName
      else if HostPath.nameMax < n.utf8ByteSize then .error .nameTooLong
      else
        match tree.at? (dir ++ [n]) with
        | none => if rest = [] then .ok (.absent dir n) else .error .notFound
        | some (.directory _) => tree.walk follow links (dir ++ [n]) rest
        | some (.file id) =>
          if rest = [] then .ok (.found (dir ++ [n]) (.file id)) else .error .notDirectory
        | some (.link target) =>
          if rest = [] ∧ !follow then .ok (.found (dir ++ [n]) (.link target))
          else
            match links with
            | 0 => .error .tooManyLinks
            | left + 1 =>
              tree.walk follow left (redirect dir target) (HostPath.names target ++ rest) := by
  rw [walk_eq, advance.eq_def]
  dsimp only
  rw [if_neg dot, if_neg up]
  by_cases zero : '\x00' ∈ n.toList
  · rw [if_pos zero, if_pos zero]
  by_cases long : HostPath.nameMax < n.utf8ByteSize
  · rw [if_neg zero, if_neg zero, if_pos long, if_pos long]
  rw [if_neg zero, if_neg zero, if_neg long, if_neg long]
  cases tree.at? (dir ++ [n]) with
  | none => by_cases last : rest = [] <;> simp [last]
  | some entry =>
    cases entry with
    | directory r => rw [walk_eq]
    | file id => by_cases last : rest = [] <;> simp [last]
    | link target =>
      by_cases last : rest = [] ∧ !follow
      · simp only [if_pos last]
      · simp only [if_neg last]

theorem walk_of_not_name (dot : n ≠ ".") (up : n ≠ "..") (illegal : ¬HostPath.IsName n) :
    tree.walk follow links dir (n :: rest) =
      .error (if '\x00' ∈ n.toList then .zeroInName else .nameTooLong) := by
  rw [walk_name dot up]
  by_cases zero : '\x00' ∈ n.toList
  · rw [if_pos zero, if_pos zero]
  · have long : HostPath.nameMax < n.utf8ByteSize := by
      by_contra short
      exact illegal ⟨dot, up, zero, Nat.le_of_not_lt short⟩
    rw [if_neg zero, if_neg zero, if_pos long]

theorem walk_of_name (name : HostPath.IsName n) :
    tree.walk follow links dir (n :: rest) =
      match tree.at? (dir ++ [n]) with
      | none => if rest = [] then .ok (.absent dir n) else .error .notFound
      | some (.directory _) => tree.walk follow links (dir ++ [n]) rest
      | some (.file id) =>
        if rest = [] then .ok (.found (dir ++ [n]) (.file id)) else .error .notDirectory
      | some (.link target) =>
        if rest = [] ∧ !follow then .ok (.found (dir ++ [n]) (.link target))
        else
          match links with
          | 0 => .error .tooManyLinks
          | left + 1 =>
            tree.walk follow left (redirect dir target) (HostPath.names target ++ rest) := by
  obtain ⟨dot, up, zero, short⟩ := name
  rw [walk_name dot up, if_neg zero, if_neg (Nat.not_lt_of_le short)]

/-- A property of walks holds if a step keeps it: one for each kind of name, and one for what a name
that is no way leads to. -/
theorem walk_induction (tree : HostTree) {motive : Nat → HostPath → List String → Prop}
    (here : ∀ links dir, motive links dir [])
    (dot : ∀ links dir rest, motive links dir rest → motive links dir ("." :: rest))
    (up : ∀ links dir rest, motive links dir.dropLast rest → motive links dir (".." :: rest))
    (illegal : ∀ links dir n rest, n ≠ "." → n ≠ ".." → ¬HostPath.IsName n →
      motive links dir (n :: rest))
    (name : ∀ links dir n rest, HostPath.IsName n →
      (∀ r, tree.at? (dir ++ [n]) = some (.directory r) → motive links (dir ++ [n]) rest) →
      (∀ target left, links = left + 1 →
        motive left (redirect dir target) (HostPath.names target ++ rest)) →
      motive links dir (n :: rest))
    (links : Nat) (dir : HostPath) (names : List String) : motive links dir names := by
  induction links generalizing dir names with
  | zero =>
    induction names generalizing dir with
    | nil => exact here 0 dir
    | cons n rest ih =>
      by_cases isDot : n = "."
      · exact isDot ▸ dot 0 dir rest (ih dir)
      by_cases isUp : n = ".."
      · exact isUp ▸ up 0 dir rest (ih dir.dropLast)
      by_cases isName : HostPath.IsName n
      · exact name 0 dir n rest isName (fun _ _ => ih _) (fun _ _ h => by cases h)
      · exact illegal 0 dir n rest isDot isUp isName
  | succ left behind =>
    induction names generalizing dir with
    | nil => exact here _ dir
    | cons n rest ih =>
      by_cases isDot : n = "."
      · exact isDot ▸ dot _ dir rest (ih dir)
      by_cases isUp : n = ".."
      · exact isUp ▸ up _ dir rest (ih dir.dropLast)
      by_cases isName : HostPath.IsName n
      · refine name _ dir n rest isName (fun _ _ => ih _) (fun target left' h => ?_)
        obtain rfl : left = left' := Nat.succ.inj h
        exact behind _ _
      · exact illegal _ dir n rest isDot isUp isName

/-- A place is as it says: what is found is there, and a name that is free could be given in its
directory. -/
def Holds (tree : HostTree) : Place → Prop
  | .found path entry => tree.at? path = some entry
  | .absent directory n =>
    HostPath.IsName n ∧ tree.HasDirectory directory ∧ tree.at? (directory ++ [n]) = none

theorem HasDirectory.redirect (h : tree.HasDirectory dir) (target : String) :
    tree.HasDirectory (redirect dir target) := by
  unfold HostTree.redirect
  split
  · exact hasDirectory_nil
  · exact h

theorem IsTree.holds_of_walk (good : tree.IsTree) (start : tree.HasDirectory dir)
    (h : tree.walk follow links dir names = .ok place) : tree.Holds place := by
  induction links, dir, names using walk_induction tree with
  | here links dir =>
    obtain ⟨r, here⟩ := start
    rw [walk_nil, here] at h
    exact Except.ok.inj h ▸ here
  | dot links dir rest ih => exact ih start (walk_dot ▸ h)
  | up links dir rest ih => exact ih (good.dropLast start) (walk_up ▸ h)
  | illegal links dir n rest dot up illegal =>
    rw [walk_of_not_name dot up illegal] at h
    cases h
  | name links dir n rest name down across =>
    rw [walk_of_name name] at h
    split at h
    next free =>
      split at h
      · cases h
        exact ⟨name, start, free⟩
      · cases h
    next r there => exact down r there ⟨r, there⟩ h
    next id there =>
      split at h
      · cases h
        exact there
      · cases h
    next target there =>
      split at h
      · cases h
        exact there
      · cases links with
        | zero => cases h
        | succ left => exact across target left rfl (start.redirect target) h

/-- Whether the link at the end is followed matters only where a walk ends at one. -/
theorem walk_true_eq (h : ∀ path target, tree.walk false links dir names ≠
      .ok (.found path (.link target))) :
    tree.walk true links dir names = tree.walk false links dir names := by
  induction links, dir, names using walk_induction tree with
  | here links dir => rw [walk_nil, walk_nil]
  | dot links dir rest ih =>
    rw [walk_dot] at h
    rw [walk_dot, walk_dot, ih h]
  | up links dir rest ih =>
    rw [walk_up] at h
    rw [walk_up, walk_up, ih h]
  | illegal links dir n rest dot up illegal =>
    rw [walk_of_not_name dot up illegal, walk_of_not_name dot up illegal]
  | name links dir n rest name down across =>
    rw [walk_of_name name] at h
    rw [walk_of_name name, walk_of_name name]
    cases there : tree.at? (dir ++ [n]) with
    | none => rfl
    | some entry =>
      rw [there] at h
      cases entry with
      | directory r => exact down r there h
      | file id => rfl
      | link target =>
        by_cases last : rest = []
        · exact absurd (by simp [last]) (h (dir ++ [n]) target)
        · cases links with
          | zero => simp [last]
          | succ left => simpa [last] using across target left rfl (by simpa [last] using h)

/-- What a directory has under a name, with no link followed. -/
def visit (tree : HostTree) (dir : HostPath) (n : String) : Except HostError Place :=
  if '\x00' ∈ n.toList then .error .zeroInName
  else if HostPath.nameMax < n.utf8ByteSize then .error .nameTooLong
  else
    match tree.at? (dir ++ [n]) with
    | none => .ok (.absent dir n)
    | some entry => .ok (.found (dir ++ [n]) entry)

/-- How a walk ends that has one more name to go. -/
def enter (tree : HostTree) (n : String) : Place → Except HostError Place
  | .found dir (.directory _) => tree.visit dir n
  | .found _ _ => .error .notDirectory
  | .absent _ _ => .error .notFound

theorem walk_singleton (dot : n ≠ ".") (up : n ≠ "..") :
    tree.walk false links dir [n] = tree.visit dir n := by
  rw [walk_name dot up, visit]
  split
  · rfl
  split
  · rfl
  cases there : tree.at? (dir ++ [n]) with
  | none => rfl
  | some entry =>
    cases entry with
    | directory r => simp only [walk_nil, there, Option.getD_some]
    | file id | link target => rfl

theorem IsTree.walk_concat (good : tree.IsTree) (start : tree.HasDirectory dir) (dot : n ≠ ".")
    (up : n ≠ "..") :
    tree.walk false links dir (names ++ [n]) =
      (tree.walk true links dir names).bind (tree.enter n) := by
  induction links, dir, names using walk_induction tree with
  | here links dir =>
    obtain ⟨r, here⟩ := start
    rw [walk_nil, here]
    exact walk_singleton dot up
  | dot links dir rest ih => rw [List.cons_append, walk_dot, walk_dot, ih start]
  | up links dir rest ih => rw [List.cons_append, walk_up, walk_up, ih (good.dropLast start)]
  | illegal links dir m rest dot' up' illegal =>
    rw [List.cons_append, walk_of_not_name dot' up' illegal, walk_of_not_name dot' up' illegal]
    rfl
  | name links dir m rest name down across =>
    have more : rest ++ [n] ≠ [] := List.append_ne_nil_of_right_ne_nil rest (List.cons_ne_nil n [])
    rw [List.cons_append, walk_of_name name, walk_of_name name]
    cases there : tree.at? (dir ++ [m]) with
    | none =>
      dsimp only
      rw [if_neg more]
      split <;> rfl
    | some entry =>
      cases entry with
      | directory r => exact down r there ⟨r, there⟩
      | file id =>
        dsimp only
        rw [if_neg more]
        split <;> rfl
      | link target =>
        cases links with
        | zero => simp [more, Except.bind]
        | succ left =>
          have behind := across target left rfl (start.redirect target)
          rw [List.append_assoc] at behind
          simpa [more] using behind

theorem walk_of_kept (kept : ∀ q e, tree.at? q = some e → grown.at? q = some e)
    (good : tree.IsTree) (start : tree.HasDirectory dir)
    (h : tree.walk follow links dir names = .ok (.found p e)) :
    grown.walk follow links dir names = .ok (.found p e) := by
  induction links, dir, names using walk_induction tree with
  | here links dir =>
    obtain ⟨r, here⟩ := start
    rw [walk_nil, here] at h
    rw [walk_nil, kept _ _ here, h]
  | dot links dir rest ih =>
    rw [walk_dot] at h ⊢
    exact ih start h
  | up links dir rest ih =>
    rw [walk_up] at h ⊢
    exact ih (good.dropLast start) h
  | illegal links dir n rest dot up illegal =>
    rw [walk_of_not_name dot up illegal] at h
    cases h
  | name links dir n rest name down across =>
    rw [walk_of_name name] at h ⊢
    cases there : tree.at? (dir ++ [n]) with
    | none =>
      rw [there] at h
      dsimp only at h
      split at h <;> cases h
    | some found =>
      rw [there] at h
      rw [kept _ _ there]
      cases found with
      | directory r => exact down r there ⟨r, there⟩ h
      | file id => exact h
      | link target =>
        by_cases last : rest = [] ∧ !follow
        · simp only [if_pos last] at h ⊢
          exact h
        · simp only [if_neg last] at h ⊢
          cases links with
          | zero => cases h
          | succ left => exact across target left rfl (start.redirect target) h

/-- A walk that ends at a free name finds the file that gets the name. -/
theorem walk_of_filled (kept : ∀ q e, tree.at? q = some e → grown.at? q = some e)
    (filled : grown.at? (q ++ [n]) = some (.file id)) (good : tree.IsTree)
    (start : tree.HasDirectory dir)
    (h : tree.walk follow links dir names = .ok (.absent q n)) :
    grown.walk follow links dir names = .ok (.found (q ++ [n]) (.file id)) := by
  induction links, dir, names using walk_induction tree with
  | here links dir =>
    rw [walk_nil] at h
    cases h
  | dot links dir rest ih =>
    rw [walk_dot] at h ⊢
    exact ih start h
  | up links dir rest ih =>
    rw [walk_up] at h ⊢
    exact ih (good.dropLast start) h
  | illegal links dir m rest dot up illegal =>
    rw [walk_of_not_name dot up illegal] at h
    cases h
  | name links dir m rest name down across =>
    rw [walk_of_name name] at h ⊢
    cases there : tree.at? (dir ++ [m]) with
    | none =>
      rw [there] at h
      dsimp only at h
      split at h
      next last =>
        cases h
        rw [filled]
        exact if_pos last
      · cases h
    | some found =>
      rw [there] at h
      rw [kept _ _ there]
      cases found with
      | directory r => exact down r there ⟨r, there⟩ h
      | file id =>
        dsimp only at h
        split at h <;> cases h
      | link target =>
        by_cases last : rest = [] ∧ !follow
        · simp only [if_pos last] at h
          cases h
        · simp only [if_neg last] at h ⊢
          cases links with
          | zero => cases h
          | succ left => exact across target left rfl (start.redirect target) h

/-- A walk that finds something finds it also after a free name has got an entry. -/
theorem walk_insert (good : tree.IsTree) (start : tree.HasDirectory dir) (named : q ≠ [])
    (free : tree.at? q = none) (h : tree.walk follow links dir names = .ok (.found p e))
    (entry : HostEntry) :
    (tree.insert q entry).walk follow links dir names = .ok (.found p e) :=
  walk_of_kept (fun _ _ there => at?_insert_of_some there named free) good start h

end HostTree

end AtariTos
