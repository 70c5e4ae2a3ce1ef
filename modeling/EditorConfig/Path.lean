import EditorConfig.Text.Basic

/-!
# Paths

Paths are texts with slashes between their parts; nothing here looks at files.

* `Path.parts`       the parts of a path: two paths with the same parts are the same path;
* `Path.names`       the names that are left of an absolute path when dots are folded;
* `Path.ofNames`     the absolute path of some names;
* `Path.join`        a name below a directory;
* `Path.absolute?`   the names of a path that may be relative to a directory;
* `Path.ancestors`   the directories above a path, each with the names below it;
* `Path.below`       names as a path that begins with a slash.

Main statements: the names of a path are plain names (`isName_of_mem_names`), and names are read
back from their path (`names_ofNames`).
-/

namespace EditorConfig.Path

/-- A path that begins with a slash. -/
def anchored (path : Text) : Text := if path.head? = some '/' then path else '/' :: path

def isAbsolute (path : Text) : Bool := path.head? = some '/'

/-! ## Parts -/

inductive Part where
  | root
  /-- A dot in front of a relative path. -/
  | here
  | up
  | name (n : Text)
deriving DecidableEq, Repr

/-- The part that a text between slashes stands for; an empty text and a dot stand for none. -/
def part? (p : Text) : Option Part :=
  if p = [] ∨ p = ['.'] then none else if p = ['.', '.'] then some .up else some (.name p)

def parts (path : Text) : List Part :=
  let ps := path.splitOn '/'
  if isAbsolute path then .root :: ps.filterMap part?
  else if ps.head? = some ['.'] then .here :: ps.filterMap part?
  else ps.filterMap part?

/-! ## Normal form -/

/-- The names kept so far, after one more part. -/
def fold (kept : List Text) (p : Text) : List Text :=
  if p = [] ∨ p = ['.'] then kept else if p = ['.', '.'] then kept.dropLast else kept ++ [p]

/-- The names of an absolute path, from the root downwards: two dots take the last one away. -/
def names (path : Text) : List Text := (path.splitOn '/').foldl fold []

/-- Names as a path that begins with a slash; no names make an empty text. -/
def below (ns : List Text) : Text := ns.flatMap ('/' :: ·)

/-- The absolute path of some names. -/
def ofNames (ns : List Text) : Text := if ns = [] then ['/'] else below ns

/-! ## Relative paths -/

/-- The path `name` seen from the directory `dir`; the text of `name` stays as it is. -/
def join (dir name : Text) : Text :=
  if isAbsolute name then name
  else if dir.getLast? = some '/' then dir ++ name
  else dir ++ '/' :: name

/-- The names of a path; a relative one is seen from `home`, if that is known. -/
def absolute? (home : Option Text) (path : Text) : Option (List Text) :=
  if isAbsolute path then some (names path) else home.map fun dir => names (join dir path)

/-! ## Ancestors -/

/-- The directories above a path, nearest first, each with the names below it. -/
def ancestors : List Text → List (List Text × List Text)
  | [] => []
  | n :: ns => (ancestors ns).map (fun (dir, rest) => (n :: dir, rest)) ++ [([], n :: ns)]

@[simp] theorem ancestors_nil : ancestors [] = [] := rfl

/-- A directory and the names below it make up the path. -/
theorem append_of_mem_ancestors {ns dir rest : List Text} (h : (dir, rest) ∈ ancestors ns) :
    dir ++ rest = ns ∧ rest ≠ [] := by
  induction ns generalizing dir with
  | nil => simp at h
  | cons n ns ih =>
    simp only [ancestors, List.mem_append, List.mem_map, Prod.exists, Prod.mk.injEq,
      List.mem_singleton] at h
    rcases h with ⟨d, r, hm, rfl, rfl⟩ | ⟨rfl, rfl⟩
    · obtain ⟨rfl, hr⟩ := ih hm
      exact ⟨rfl, hr⟩
    · simp

/-! ## Names and their paths -/

/-- A text that can stand between two slashes and means itself there. -/
def IsName (n : Text) : Prop := n ≠ [] ∧ n ≠ ['.'] ∧ n ≠ ['.', '.'] ∧ '/' ∉ n

instance : DecidablePred IsName := fun _ => inferInstanceAs (Decidable (_ ∧ _))

theorem isName_of_mem_fold {kept : List Text} {p n : Text} (hk : ∀ m ∈ kept, IsName m)
    (hp : '/' ∉ p) (h : n ∈ fold kept p) : IsName n := by
  unfold fold at h
  split at h
  · exact hk n h
  · next hdot =>
    split at h
    · exact hk n ((List.dropLast_sublist kept).mem h)
    · next hdots =>
      rcases List.mem_append.1 h with h | h
      · exact hk n h
      · obtain rfl := List.mem_singleton.1 h
        exact ⟨fun he => hdot (.inl he), fun he => hdot (.inr he), hdots, hp⟩

theorem isName_of_mem_foldl {ps kept : List Text} {n : Text} (hk : ∀ m ∈ kept, IsName m)
    (hp : ∀ p ∈ ps, '/' ∉ p) (h : n ∈ ps.foldl fold kept) : IsName n := by
  induction ps generalizing kept with
  | nil => exact hk n h
  | cons p ps ih =>
    have hkept (m : Text) (hm : m ∈ fold kept p) : IsName m :=
      isName_of_mem_fold hk (hp p (by simp)) hm
    exact ih hkept (fun q hq => hp q (List.mem_cons_of_mem _ hq)) h

/-- Folding leaves neither dots nor empty names. -/
theorem isName_of_mem_names {path n : Text} (h : n ∈ names path) : IsName n :=
  isName_of_mem_foldl (by simp) (fun _ hp => Text.not_mem_of_mem_splitOn hp) h

theorem fold_name {kept : List Text} {n : Text} (h : IsName n) : fold kept n = kept ++ [n] := by
  unfold fold
  rw [if_neg (by rintro (h' | h') <;> simp_all [IsName]), if_neg h.2.2.1]

theorem foldl_fold_names {kept ns : List Text} (h : ∀ n ∈ ns, IsName n) :
    ns.foldl fold kept = kept ++ ns := by
  induction ns generalizing kept with
  | nil => simp
  | cons n ns ih =>
    rw [List.foldl_cons, fold_name (h n (by simp)), ih fun m hm => h m (List.mem_cons_of_mem _ hm)]
    simp

theorem splitOn_below {ns : List Text} (h : ∀ n ∈ ns, IsName n) :
    List.splitOn '/' (below ns) = [] :: ns := by
  induction ns with
  | nil => rfl
  | cons n ns ih =>
    have hn : '/' ∉ n := (h n (by simp)).2.2.2
    have hns := ih fun m hm => h m (List.mem_cons_of_mem _ hm)
    show List.splitOn '/' ('/' :: (n ++ below ns)) = _
    rw [Text.splitOn_cons_self, Text.splitOn_append hn hns, List.append_nil]

theorem names_ofNames {ns : List Text} (h : ∀ n ∈ ns, IsName n) : names (ofNames ns) = ns := by
  unfold ofNames
  split
  · next he => rw [he]; rfl
  · rw [names, splitOn_below h, List.foldl_cons, foldl_fold_names h]
    simp [fold]

end EditorConfig.Path
