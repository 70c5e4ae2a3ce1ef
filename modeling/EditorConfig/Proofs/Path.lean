import EditorConfig.Resolver

/-!
# Directories above a path

* `Path.ancestors_eq`        the directories above a path are its initial parts, longest first;
* `Path.parts_join_ofNames`  the parts of a name below a directory of plain names.

Main statement: for one name of config files, two config paths with the same parts are the same
text (`Resolver.configPath_eq_of_parts_eq`).
-/

namespace EditorConfig

namespace Path

theorem ancestors_eq (ns : List Text) :
    ancestors ns = (List.range ns.length).reverse.map fun k => (ns.take k, ns.drop k) := by
  induction ns with
  | nil => rfl
  | cons n ns ih =>
    rw [ancestors, ih, List.length_cons, List.range_succ_eq_map, List.reverse_cons,
      List.map_append, ← List.map_reverse, List.map_map, List.map_map]
    rfl

theorem below_eq {ns : List Text} (h : ns ≠ []) : below ns = '/' :: ['/'].intercalate ns := by
  induction ns with
  | nil => exact absurd rfl h
  | cons n ns ih =>
    cases ns with
    | nil => simp [below]
    | cons m ns =>
      rw [List.intercalate_cons_cons]
      show '/' :: n ++ below (m :: ns) = _
      rw [ih (by simp)]
      simp

theorem absolute?_ofNames {ns : List Text} (h : ∀ n ∈ ns, IsName n) (home : Option Text) :
    absolute? home (ofNames ns) = some ns := by
  have habsolute : isAbsolute (ofNames ns) = true := by
    cases ns with
    | nil => rfl
    | cons n ns => rfl
  rw [absolute?, if_pos habsolute, names_ofNames h]

/-! ## Paths below a directory -/

theorem getLast?_below {ns : List Text} (h : ∀ n ∈ ns, IsName n) :
    (below ns).getLast? ≠ some '/' := by
  induction ns with
  | nil => simp [below]
  | cons n ns ih =>
    have hns := ih fun m hm => h m (List.mem_cons_of_mem _ hm)
    obtain ⟨hne, -, -, hslash⟩ := h n (by simp)
    show ('/' :: n ++ below ns).getLast? ≠ some '/'
    rw [List.getLast?_append]
    cases hb : (below ns).getLast? with
    | some c =>
      rw [hb] at hns
      simpa using hns
    | none =>
      intro hc
      have hlast : n.getLast? = some '/' := by
        obtain ⟨c, hn⟩ := Option.ne_none_iff_exists'.1 (mt List.getLast?_eq_none_iff.1 hne)
        simpa [List.getLast?_cons, hn] using hc
      exact hslash (List.mem_of_getLast? hlast)

theorem join_ofNames {dir : List Text} {name : Text} (h : ∀ n ∈ dir, IsName n)
    (hname : isAbsolute name = false) : join (ofNames dir) name = below dir ++ '/' :: name := by
  unfold join ofNames
  rw [hname, if_neg Bool.false_ne_true]
  split
  · next he => simp [he, below]
  · rw [if_neg (getLast?_below h)]

theorem part?_name {n : Text} (h : IsName n) : part? n = some (.name n) := by
  obtain ⟨hne, hdot, hdots, -⟩ := h
  simp [part?, hne, hdot, hdots]

theorem filterMap_part? {ns : List Text} (h : ∀ n ∈ ns, IsName n) :
    ns.filterMap part? = ns.map .name := by
  induction ns with
  | nil => rfl
  | cons n ns ih =>
    rw [List.filterMap_cons_some (part?_name (h n (by simp))),
      ih fun m hm => h m (List.mem_cons_of_mem _ hm), List.map_cons]

/-- The parts of a relative name below a directory: the root, the names of the directory, and the
parts of the name. -/
theorem parts_join_ofNames {dir : List Text} {name : Text} (h : ∀ n ∈ dir, IsName n)
    (hname : isAbsolute name = false) :
    parts (join (ofNames dir) name)
      = .root :: (dir.map .name ++ (name.splitOn '/').filterMap part?) := by
  have hroot : isAbsolute (below dir ++ '/' :: name) = true := by
    cases dir with
    | nil => simp [isAbsolute, below]
    | cons n ns => simp [isAbsolute, below]
  rw [join_ofNames h hname, parts, hroot, if_pos rfl, List.splitOn_append_cons_self,
    splitOn_below h, List.filterMap_append, List.filterMap_cons_none rfl, filterMap_part? h]

end Path

namespace Resolver

/-- Config files of one name that lie at the same path lie at the same text. -/
theorem configPath_eq_of_parts_eq {r : Resolver} {dir dir' : List Text}
    (h : ∀ n ∈ dir, Path.IsName n) (h' : ∀ n ∈ dir', Path.IsName n)
    (he : Path.parts (r.configPath dir) = Path.parts (r.configPath dir')) :
    r.configPath dir = r.configPath dir' := by
  cases hname : Path.isAbsolute r.name with
  | true => simp [configPath, Path.join, hname]
  | false =>
    have hparts := he
    rw [configPath, configPath, Path.parts_join_ofNames h hname,
      Path.parts_join_ofNames h' hname, List.cons.injEq, List.append_left_inj] at hparts
    have hdir : dir = dir' := (List.map_inj_right fun _ _ => Path.Part.name.inj).1 hparts.2
    rw [hdir]

end Resolver

end EditorConfig
