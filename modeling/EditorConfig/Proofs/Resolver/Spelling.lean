import EditorConfig.Proofs.Path

/-!
# Other spellings of a target

* `Path.Part.after`     the names that are kept after one more part of a path;
* `Path.Respelling`     a path with slashes doubled, with dots and detours put in, or normalised.

Main statement: the absolute path of a target is found by reading its parts from left to right, is
in normal form, and comes back from its own text; targets with other spellings are resolved alike,
and the same files are read for them (`resolve_respelled`).
-/

namespace EditorConfig

namespace Path

/-! ## Part by part -/

/-- The names that are kept after one more part: two dots take the last one away. -/
def Part.after (kept : List Text) : Part → List Text
  | .root => []
  | .here => kept
  | .up => kept.dropLast
  | .name n => kept ++ [n]

theorem fold_eq (kept : List Text) (p : Text) :
    fold kept p = (part? p).elim kept (Part.after kept) := by
  unfold fold part?
  split
  · rfl
  · split
    · rfl
    · rfl

theorem foldl_fold_eq (kept ps : List Text) :
    ps.foldl fold kept = (ps.filterMap part?).foldl Part.after kept := by
  induction ps generalizing kept with
  | nil => rfl
  | cons p ps ih =>
    rw [List.foldl_cons, ih, fold_eq]
    cases hp : part? p with
    | none => rw [List.filterMap_cons_none hp, Option.elim_none]
    | some q => rw [List.filterMap_cons_some hp, Option.elim_some, List.foldl_cons]

/-- The names of a path are what its parts leave when they are read from left to right. -/
theorem names_eq_foldl_parts (path : Text) : names path = (parts path).foldl Part.after [] := by
  rw [names, foldl_fold_eq]
  simp only [parts]
  split
  · rfl
  · split
    · rfl
    · rfl

theorem parts_ofNames {ns : List Text} (h : ∀ n ∈ ns, IsName n) :
    parts (ofNames ns) = .root :: ns.map .name := by
  cases ns with
  | nil => rfl
  | cons n ns =>
    have hroot : isAbsolute (below (n :: ns)) = true := rfl
    rw [ofNames, if_neg (List.cons_ne_nil n ns), parts, hroot, if_pos rfl, splitOn_below h,
      List.filterMap_cons_none rfl, filterMap_part? h]

theorem absolute?_some (home target : Text) :
    absolute? (some home) target = some (names (join home target)) := by
  unfold absolute? join
  split <;> rfl

/-! ## Places in a path -/

/-- A part other than the root begins between two texts, or nothing follows the first one. -/
def AtPart (a b : Text) : Prop := (a = [] ∨ a.getLast? = some '/') ∧ isAbsolute b = false

instance (a b : Text) : Decidable (AtPart a b) := inferInstanceAs (Decidable (_ ∧ _))

theorem names_append_slash (p t : Text) :
    names (p ++ '/' :: t) = (t.splitOn '/').foldl fold (names p) := by
  rw [names, List.splitOn_append_cons_self, List.foldl_append]
  rfl

/-- What follows a slash stays as it is when a path is seen from a directory. -/
theorem exists_join_append_slash (home a : Text) :
    ∃ p, ∀ t, join home (a ++ '/' :: t) = p ++ '/' :: t := by
  cases a with
  | nil => exact ⟨[], fun t => rfl⟩
  | cons c a =>
    refine ⟨join home (c :: a), fun t => ?_⟩
    have habsolute : isAbsolute (c :: a ++ '/' :: t) = isAbsolute (c :: a) := rfl
    unfold join
    rw [habsolute]
    split
    · rfl
    · split
      · rw [List.append_assoc]
      · rw [List.append_assoc]
        rfl

/-- A relative path stays as it is behind the slash of the directory that it is seen from. -/
theorem exists_join_of_relative (home : Text) :
    ∃ p, ∀ t, isAbsolute t = false → join home t = p ++ '/' :: t := by
  by_cases hlast : home.getLast? = some '/'
  · obtain ⟨p, rfl⟩ := List.getLast?_eq_some_iff.1 hlast
    refine ⟨p, fun t ht => ?_⟩
    rw [join, ht, if_neg Bool.false_ne_true, if_pos hlast, List.append_assoc]
    rfl
  · refine ⟨home, fun t ht => ?_⟩
    rw [join, ht, if_neg Bool.false_ne_true, if_neg hlast]

theorem AtPart.exists_join {a b : Text} (h : AtPart a b) (home : Text) :
    ∃ p, ∀ t, isAbsolute t = false → join home (a ++ t) = p ++ '/' :: t := by
  obtain ⟨rfl | hlast, -⟩ := h
  · exact exists_join_of_relative home
  · obtain ⟨a, rfl⟩ := List.getLast?_eq_some_iff.1 hlast
    obtain ⟨p, hp⟩ := exists_join_append_slash home a
    refine ⟨p, fun t _ => ?_⟩
    rw [List.append_assoc]
    exact hp t

/-! ## Other spellings -/

/-- Other spellings of a path that is seen from `home`, if it is relative. -/
inductive Respelling (home : Text) : Text → Text → Prop
  | doubled (a b : Text) : Respelling home (a ++ '/' :: b) (a ++ '/' :: '/' :: b)
  | dot {a b : Text} (h : AtPart a b) : Respelling home (a ++ b) (a ++ ("./".toList ++ b))
  | detour {a b x : Text} (h : AtPart a b) (hx : IsName x) :
    Respelling home (a ++ b) (a ++ (x ++ "/../".toList ++ b))
  | normal {target : Text} {ns : List Text} (h : absolute? (some home) target = some ns) :
    Respelling home target (ofNames ns)
  | trans {s t u : Text} (h : Respelling home s t) (h' : Respelling home t u) : Respelling home s u

theorem names_doubled (p t : Text) : names (p ++ '/' :: '/' :: t) = names (p ++ '/' :: t) := by
  rw [names_append_slash, names_append_slash, Text.splitOn_cons_self, List.foldl_cons]
  rfl

theorem names_dot (p t : Text) :
    names (p ++ '/' :: ("./".toList ++ t)) = names (p ++ '/' :: t) := by
  have hsplit : List.splitOn '/' ("./".toList ++ t) = ['.'] :: List.splitOn '/' t := rfl
  rw [names_append_slash, names_append_slash, hsplit, List.foldl_cons]
  rfl

/-- A name is taken away again by the two dots after it. -/
theorem names_detour {x : Text} (hx : IsName x) (p t : Text) :
    names (p ++ '/' :: (x ++ "/../".toList ++ t)) = names (p ++ '/' :: t) := by
  have hsplit : List.splitOn '/' (x ++ "/../".toList ++ t)
      = x :: ['.', '.'] :: List.splitOn '/' t := by
    have hdots : List.splitOn '/' ("/../".toList ++ t)
        = [] :: ['.', '.'] :: List.splitOn '/' t := rfl
    rw [List.append_assoc, Text.splitOn_append hx.2.2.2 hdots, List.append_nil]
  have hback (kept : List Text) : fold (fold kept x) ['.', '.'] = kept := by
    rw [fold_name hx, fold, if_neg (by decide), if_pos rfl, List.dropLast_concat]
  rw [names_append_slash, names_append_slash, hsplit, List.foldl_cons, List.foldl_cons, hback]

theorem Respelling.absolute?_eq {home s t : Text} (h : Respelling home s t) :
    absolute? (some home) t = absolute? (some home) s := by
  induction h with
  | doubled a b =>
    obtain ⟨p, hp⟩ := exists_join_append_slash home a
    rw [absolute?_some, absolute?_some, hp, hp, names_doubled]
  | dot h =>
    obtain ⟨p, hp⟩ := h.exists_join home
    rw [absolute?_some, absolute?_some, hp _ rfl, hp _ h.2, names_dot]
  | @detour a b x h hx =>
    obtain ⟨p, hp⟩ := h.exists_join home
    have hrelative : isAbsolute (x ++ "/../".toList ++ b) = false := by
      obtain ⟨c, x, rfl⟩ := List.exists_cons_of_ne_nil hx.1
      have hc : c ≠ '/' := fun he => hx.2.2.2 (by simp [he])
      simpa [isAbsolute] using hc
    rw [absolute?_some, absolute?_some, hp _ hrelative, hp _ h.2, names_detour hx]
  | @normal target ns h =>
    have hns : ∀ n ∈ ns, IsName n := by
      intro n hn
      obtain rfl := Option.some.inj ((absolute?_some home target).symm.trans h)
      exact isName_of_mem_names hn
    rw [absolute?_ofNames hns, h]
  | trans _ _ ih ih' => exact ih'.trans ih

end Path

namespace Resolver

/-- **Other spellings of a target.**  The absolute path of a target is what its parts leave, seen
from the current directory and read from left to right; it is made of plain names, and its own text
has these names and no others, wherever it is seen from.  A target with another spelling has the
same resolution, and the same files are read for it. -/
theorem resolve_respelled [Regex.Engine] (r : Resolver) (home : Text) (src : Source) :
    (∀ target, ∃ ns, Path.absolute? (some home) target = some ns ∧
      ns = (Path.parts (Path.join home target)).foldl Path.Part.after [] ∧
      (∀ n ∈ ns, Path.IsName n) ∧
      Path.parts (Path.ofNames ns) = .root :: ns.map .name ∧
      ∀ home', Path.absolute? home' (Path.ofNames ns) = some ns) ∧
    ∀ target target', Path.Respelling home target target' → ∀ s,
      r.resolve (some home) src target' s = r.resolve (some home) src target s := by
  refine ⟨fun target => ?_, fun target target' h s => ?_⟩
  · have hns : ∀ n ∈ Path.names (Path.join home target), Path.IsName n :=
      fun n hn => Path.isName_of_mem_names hn
    exact ⟨_, Path.absolute?_some home target, Path.names_eq_foldl_parts _, hns,
      Path.parts_ofNames hns, Path.absolute?_ofNames hns⟩
  · have hsome := Path.absolute?_some home target
    rw [resolve, resolve, h.absolute?_eq, hsome]

/-- Seen from the root, a target with too many dots in it, and other spellings of it up to its
absolute path. -/
theorem resolve_respelled_dots (r : Resolver) (src : Source) (s : Session) :
    Path.Respelling ['/'] "../a/b".toList ".././a//x/../b".toList ∧
      Path.Respelling ['/'] "../a/b".toList "/a/b".toList ∧
      r.resolve (some ['/']) src ".././a//x/../b".toList s
        = r.resolve (some ['/']) src "../a/b".toList s ∧
      r.resolve (some ['/']) src "/a/b".toList s
        = r.resolve (some ['/']) src "../a/b".toList s := by
  have hdot : Path.Respelling ['/'] "../a/b".toList ".././a/b".toList :=
    .dot (a := "../".toList) (b := "a/b".toList) (by decide)
  have hdoubled : Path.Respelling ['/'] ".././a/b".toList ".././a//b".toList :=
    .doubled ".././a".toList "b".toList
  have hdetour : Path.Respelling ['/'] ".././a//b".toList ".././a//x/../b".toList :=
    .detour (a := ".././a//".toList) (b := "b".toList) (x := "x".toList) (by decide) (by decide)
  have hchain := hdot.trans (hdoubled.trans hdetour)
  have hnormal : Path.Respelling ['/'] "../a/b".toList "/a/b".toList :=
    @Path.Respelling.normal ['/'] "../a/b".toList [['a'], ['b']] (by decide)
  exact ⟨hchain, hnormal, (resolve_respelled r ['/'] src).2 _ _ hchain s,
    (resolve_respelled r ['/'] src).2 _ _ hnormal s⟩

end Resolver

end EditorConfig
