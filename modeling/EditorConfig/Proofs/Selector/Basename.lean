import EditorConfig.Proofs.Faithful
import EditorConfig.Proofs.Glob.Fit
import EditorConfig.Proofs.Glob.Slash
import EditorConfig.Proofs.Text.Sign

/-!
# Selectors that mean a name at any depth

Main statements: a selector that cannot take a slash covers a path exactly when its own pattern
accepts the last name of the path (`Selector.selects_eq_accepts_name`).  The star covers what lies
below a directory exactly when no directory on the way has a newline in its name
(`Selector.selects_star_below_iff`).
-/

namespace EditorConfig

namespace Text

/-- The last separator of a text cuts it in one way only. -/
theorem eq_of_append_cons_eq {sep : Char} {a b u v : Text} (hb : sep ∉ b) (hv : sep ∉ v)
    (h : a ++ sep :: b = u ++ sep :: v) : a = u ∧ b = v := by
  induction a generalizing u with
  | nil =>
    cases u with
    | nil => exact ⟨rfl, (List.cons.inj h).2⟩
    | cons c u =>
      have hb' : b = u ++ sep :: v := (List.cons.inj h).2
      exact absurd (by simp [hb']) hb
  | cons c a ih =>
    cases u with
    | nil =>
      have hv' : a ++ sep :: b = v := (List.cons.inj h).2
      exact absurd (by simp [← hv']) hv
    | cons d u =>
      obtain ⟨rfl, htail⟩ := List.cons.inj h
      obtain ⟨rfl, rfl⟩ := ih htail
      exact ⟨rfl, rfl⟩

end Text

namespace Glob

/-- What directories take ends with a slash. -/
theorem takes_dirs {t : Text} :
    dirs.Takes t ↔ ∃ d, t = d ++ ['/'] ∧ (d = [] ∨ d.head? = some '/' ∧ '\n' ∉ d) := by
  constructor
  · intro h
    rcases h with rfl | ⟨w, hw, rfl⟩
    · exact ⟨[], rfl, .inl rfl⟩
    · exact ⟨'/' :: w, rfl, .inr ⟨rfl, by simpa using hw⟩⟩
  · intro h1
    obtain ⟨d, rfl, rfl | ⟨hd, hn⟩⟩ := h1
    · exact .inl rfl
    · obtain ⟨w, rfl⟩ := List.head?_eq_some_iff.1 hd
      exact .inr ⟨w, fun hm => hn (List.mem_cons_of_mem _ hm), rfl⟩

/-- Behind directories a glob that takes no slash takes the last name of a path, if the directories
take the rest. -/
theorem takes_dirs_seq_iff {g : Glob} (hg : g.SlashFree) {d b : Text} (hb : '/' ∉ b) :
    (seq dirs g).Takes (d ++ '/' :: b) ↔
      (d = [] ∨ d.head? = some '/' ∧ '\n' ∉ d) ∧ g.Takes b := by
  constructor
  · intro h1
    obtain ⟨u, v, huv, hu, hv⟩ := h1
    obtain ⟨e, rfl, he⟩ := takes_dirs.1 hu
    rw [List.append_assoc] at huv
    obtain ⟨rfl, rfl⟩ := Text.eq_of_append_cons_eq hb (not_mem_of_takes hg hv) huv
    exact ⟨he, hv⟩
  · intro h
    exact ⟨d ++ ['/'], b, by simp, takes_dirs.2 ⟨d, rfl, h.1⟩, h.2⟩

theorem takes_dirs_seq {g : Glob} (hg : g.SlashFree) {d b : Text} (hb : '/' ∉ b) (hd : '\n' ∉ d)
    (hhead : d = [] ∨ d.head? = some '/') :
    (seq dirs g).Takes (d ++ '/' :: b) ↔ g.Takes b := by
  have hdirs : d = [] ∨ d.head? = some '/' ∧ '\n' ∉ d := hhead.imp id fun hs => ⟨hs, hd⟩
  rw [takes_dirs_seq_iff hg hb, and_iff_right hdirs]

theorem classes_ones (n : Nat) : (ones n).classes = [] := by
  induction n with
  | zero => rfl
  | succ n ih => exact ih

end Glob

theorem Path.head?_anchored (path : Text) : (anchored path).head? = some '/' := by
  unfold anchored
  split
  · next h => exact h
  · rfl

namespace Selector

variable {s : Text}

theorem ofText_anchored (h : '/' ∉ s) :
    Glob.ofText (anchored s) = .seq .dirs (Glob.ofText s) := by
  have hsigns : (anchored s).signs
      = .plain '/' :: .plain '*' :: .plain '*' :: .plain '/' :: s.signs := by
    rw [anchored, if_pos h]
    simp [Text.signs_plain]
  have hbalanced : Brace.balanced
      (.plain '/' :: .plain '*' :: .plain '*' :: .plain '/' :: s.signs)
        = Brace.balanced s.signs := by
    simp [Brace.balanced]
  rw [Glob.ofText, hsigns, Glob.ofSigns, Glob.ofSignsWith_token (g := .dirs) rfl, hbalanced]
  rfl

theorem stayInside_signs (hslash : '/' ∉ s) (hstars : ¬['*', '*'] <:+: s) :
    Sign.StayInside s.signs := by
  refine ⟨fun x hx he => ?_, fun h => ?_⟩
  · rw [← he] at hslash
    exact hslash (Text.char_mem_of_mem_signs hx)
  · have hchars : ['*', '*'].map Sign.plain <:+: s.signs := h
    exact hstars (Text.infix_of_infix_signs hchars)

/-- **The last name of a path decides.**  Let a selector have no slash and no two stars in a row,
let none of its classes take a slash, and let its pattern not be refused.  Then it covers a path
exactly when its own pattern accepts the last name of the path, whatever matcher is asked. -/
theorem selects_eq_accepts_name [Regex.Engine] (hslash : '/' ∉ s) (hstars : ¬['*', '*'] <:+: s)
    (hclasses : ∀ b ∈ (Glob.ofText s).classes, ¬Glob.Has b '/')
    (hsome : (pattern s).expression.isSome = true) {path d b : Text}
    (hpath : Path.anchored path = d ++ '/' :: b) (hb : '/' ∉ b) (hd : '\n' ∉ d) :
    selects s path = (Pattern.compile s).accepts b ∧
      ∀ patterns calls, (((Matcher.opened patterns).run calls).selects s path).1
        = (Pattern.compile s).accepts b := by
  have hhead : d = [] ∨ d.head? = some '/' := by
    have hanchored := Path.head?_anchored path
    rw [hpath] at hanchored
    cases d with
    | nil => exact .inl rfl
    | cons c d => exact .inr hanchored
  have hfree : (Glob.ofText s).SlashFree :=
    Glob.slashFree_ofSignsWith _ _ (stayInside_signs hslash hstars) hclasses
  have hown : (Pattern.compile s).expression.isSome = true := by
    obtain ⟨hfits, hroom⟩ := Pattern.isSome_compile.1 hsome
    rw [ofText_anchored hslash] at hfits hroom
    exact Pattern.isSome_compile.2
      ⟨(Glob.fits_seq.1 hfits).2, hroom.of_seq (Glob.proper_ofText s)⟩
  have hselects : selects s path = (Pattern.compile s).accepts b := by
    rw [Bool.eq_iff_iff]
    show (Pattern.compile (anchored s)).accepts (Path.anchored path) = true ↔ _
    rw [Pattern.accepts_iff_takes hsome, ofText_anchored hslash, hpath,
      Glob.takes_dirs_seq hfree hb hd hhead, Pattern.accepts_iff_takes hown]
  refine ⟨hselects, fun patterns calls => ?_⟩
  rw [Matcher.selects_run, hselects]

/-- The class `[!.-0]` takes no slash, which stands between the dot and the zero. -/
theorem selects_eq_accepts_name_negated :
    (pattern "{*.[ch],x[!.-0]}".toList).expression.isSome = true ∧
      selects "{*.[ch],x[!.-0]}".toList "src/lib/a.c".toList
        = (Pattern.compile "{*.[ch],x[!.-0]}".toList).accepts "a.c".toList := by
  have hglob : Glob.ofText "{*.[ch],x[!.-0]}".toList
      = .seq (.group (.alt
          (.seq .run (.seq (.char '.')
            (.seq (.bracket ⟨false, [.member 'c', .member 'h']⟩) .empty)))
          (.seq (.char 'x')
            (.seq (.bracket ⟨true, [.member '.', .dash, .member '0']⟩) .empty)))) .empty := by
    simp [Glob.ofText, Text.signs, Glob.ofSigns, Glob.ofSignsWith_cons, Glob.ofSignsWith_nil,
      Glob.lead, Brace.closing?, Brace.deeper, Brace.balanced, Glob.ofBody_eq, Brace.range?,
      Brace.plainText?, Brace.alternatives, Text.cutPair?, Glob.choice, Bracket.read?,
      Bracket.marksFrom?, Sign.char]
  have hslash : '/' ∉ "{*.[ch],x[!.-0]}".toList := by decide
  have hstars : ¬['*', '*'] <:+: "{*.[ch],x[!.-0]}".toList := by decide +kernel
  have hanchored := ofText_anchored hslash
  rw [hglob] at hanchored
  have hsome : (pattern "{*.[ch],x[!.-0]}".toList).expression.isSome = true :=
    Pattern.isSome_compile_of_weight_le hanchored (by decide) (by decide)
  have hclasses : ∀ b ∈ (Glob.ofText "{*.[ch],x[!.-0]}".toList).classes, ¬Glob.Has b '/' := by
    rw [hglob]
    intro b hb
    have hb : b = ⟨false, [.member 'c', .member 'h']⟩
        ∨ b = ⟨true, [.member '.', .dash, .member '0']⟩ := by
      simpa [Glob.classes] using hb
    rcases hb with rfl | rfl
    · rintro ⟨k, ⟨rfl⟩, hk⟩
      exact absurd hk (by decide)
    · rintro ⟨k, ⟨rfl⟩, hk⟩
      exact absurd hk (by decide)
  have hpath : Path.anchored "src/lib/a.c".toList = "/src/lib".toList ++ '/' :: "a.c".toList := by
    decide
  exact ⟨hsome, (selects_eq_accepts_name hslash hstars hclasses hsome hpath (by decide)
    (by decide)).1⟩

/-- So many question marks have no room, with directories in front of them or without: the name of a
file is compared with one text, and its path with another. -/
theorem selects_unlike_accepts_name :
    let s : Text := List.replicate 100000 '?'
    '/' ∉ s ∧ ¬['*', '*'] <:+: s ∧ (∀ b ∈ (Glob.ofText s).classes, ¬Glob.Has b '/') ∧
      (∃ r, Regex.parse? (Pattern.expressionText (anchored s)) = some r ∧
        r.height ≤ Regex.nestLimit) ∧
      Path.anchored ("/d/".toList ++ s) = "/d".toList ++ '/' :: s ∧
      (Pattern.compile s).accepts s = true ∧ selects s ("/d/".toList ++ s) = false := by
  intro s
  have hmem {c : Char} (hc : c ∈ s) : c = '?' := List.eq_of_mem_replicate hc
  have hslash : '/' ∉ s := fun h => absurd (hmem h) (by decide)
  have hstars : ¬['*', '*'] <:+: s := fun h =>
    absurd (hmem (h.subset List.mem_cons_self)) (by decide)
  have hglob : Glob.ofText (anchored s) = .seq .dirs (.ones 100000) := by
    rw [ofText_anchored hslash, Glob.ofText_questionMarks]
  have hclasses : (Glob.ofText s).classes = [] := by
    rw [Glob.ofText_questionMarks, Glob.classes_ones]
  have hheight : (Glob.ofText (anchored s)).expression.height ≤ Regex.nestLimit := by
    have hdirs : Glob.dirs.Fits := by decide
    rw [Glob.height_expression_le (Glob.proper_ofText _), hglob, Glob.fits_seq]
    exact ⟨hdirs, Glob.fits_ones _⟩
  have hrefused : (pattern s).expression = none :=
    Pattern.refused_of_weight_lt hglob (Glob.lt_weight_seq_ones .dirs (by decide))
  refine ⟨hslash, hstars, ?_, ⟨_, Glob.parse?_expressionText _, hheight⟩, rfl, ?_, ?_⟩
  · rw [hclasses]
    exact fun b hb => absurd hb List.not_mem_nil
  · exact (Pattern.accepts_iff_eq (Pattern.questionMarks_refused (by decide)) s).2 rfl
  · apply Pattern.accepts_eq_false_of_ne hrefused
    rw [anchored, if_pos hslash]
    intro hsame
    cases hsame

end Selector

/-! ## The lone star -/

namespace Path

theorem head?_below (ns : List Text) : below ns = [] ∨ (below ns).head? = some '/' := by
  cases ns with
  | nil => exact .inl rfl
  | cons n ns => exact .inr rfl

theorem below_eq_append {ns : List Text} (h : ns ≠ []) :
    below ns = below ns.dropLast ++ '/' :: ns.getLast h := by
  have hns : below ns = below (ns.dropLast ++ [ns.getLast h]) := by
    rw [List.dropLast_concat_getLast]
  rw [hns, below, List.flatMap_append]
  simp [below]

theorem mem_below {c : Char} (hc : c ≠ '/') {ns : List Text} :
    c ∈ below ns ↔ ∃ n ∈ ns, c ∈ n := by
  simp [below, hc]

end Path

namespace Selector

theorem ofText_star : Glob.ofText (anchored ['*']) = .seq .dirs (.seq .run .empty) := by
  show Glob.ofSigns [.plain '/', .plain '*', .plain '*', .plain '/', .plain '*'] = _
  rw [Glob.ofSigns, Glob.ofSignsWith_token (g := .dirs) rfl,
    Glob.ofSignsWith_token (g := .run) rfl, Glob.ofSignsWith_nil]

/-- The star takes any name, and the directories in front of it take anything but newlines. -/
theorem selects_star_iff [Regex.Engine] {path d b : Text}
    (hpath : Path.anchored path = d ++ '/' :: b) (hb : '/' ∉ b) (hd : d = [] ∨ d.head? = some '/') :
    selects ['*'] path = true ↔ '\n' ∉ d := by
  have hsome : (pattern ['*']).expression.isSome = true :=
    Pattern.isSome_compile_of_weight_le ofText_star (by decide) (by decide)
  have hname : (Glob.seq .run .empty).Takes b := ⟨b, [], by simp, hb, rfl⟩
  show (Pattern.compile (anchored ['*'])).accepts (Path.anchored path) = true ↔ _
  rw [Pattern.accepts_iff_takes hsome, ofText_star, hpath,
    Glob.takes_dirs_seq_iff (g := .seq .run .empty) ⟨trivial, trivial⟩ hb, and_iff_left hname]
  constructor
  · rintro (rfl | ⟨-, hn⟩)
    · simp
    · exact hn
  · exact fun hn => hd.imp id fun hs => ⟨hs, hn⟩

/-- **What the star covers.**  Below a directory it covers a path exactly when no directory on the
way has a newline in its name; the last name may have one. -/
theorem selects_star_below_iff [Regex.Engine] {ns dir rest : List Text}
    (hns : ∀ n ∈ ns, Path.IsName n) (h : (dir, rest) ∈ Path.ancestors ns) :
    selects ['*'] (Path.below rest) = true ↔ ∀ n ∈ rest.dropLast, '\n' ∉ n := by
  obtain ⟨rfl, hne⟩ := Path.append_of_mem_ancestors h
  have hlast : Path.IsName (rest.getLast hne) :=
    hns _ (List.mem_append_right dir (List.getLast_mem hne))
  have hslash : (Path.below rest).head? = some '/' :=
    (Path.head?_below rest).resolve_left fun he => by simp [Path.below_eq_append hne] at he
  have hpath : Path.anchored (Path.below rest)
      = Path.below rest.dropLast ++ '/' :: rest.getLast hne := by
    rw [Path.anchored, if_pos hslash, Path.below_eq_append hne]
  rw [selects_star_iff hpath hlast.2.2.2 (Path.head?_below _), Path.mem_below (by decide)]
  simp

theorem selects_star_below_iff_newline :
    let ns : List Text := [['a'], ['b'], ['c', '\n']]
    (∀ n ∈ ns, Path.IsName n) ∧ ([['a']], [['b'], ['c', '\n']]) ∈ Path.ancestors ns ∧
      selects ['*'] (Path.below [['b'], ['c', '\n']]) = true := by
  have hns : ∀ n ∈ [['a'], ['b'], ['c', '\n']], Path.IsName n := by decide
  have hdir : ([['a']], [['b'], ['c', '\n']]) ∈ Path.ancestors [['a'], ['b'], ['c', '\n']] := by
    decide
  exact ⟨hns, hdir, (selects_star_below_iff hns hdir).2 (by decide)⟩

/-- A newline in the name of a directory hides what lies below it. -/
theorem star_misses_newline :
    let ns : List Text := [['a', '\n', 'b'], ['c']]
    (∀ n ∈ ns, Path.IsName n) ∧ ([], ns) ∈ Path.ancestors ns ∧
      selects ['*'] (Path.below ns) = false := by
  have hpath : Path.anchored (Path.below [['a', '\n', 'b'], ['c']])
      = ['/', 'a', '\n', 'b'] ++ '/' :: ['c'] := rfl
  refine ⟨by decide, by decide, ?_⟩
  rw [← Bool.not_eq_true, selects_star_iff hpath (by decide) (.inr rfl)]
  decide

end Selector

end EditorConfig
