import EditorConfig.Text.Basic

/-!
# Properties

A finite map from names to values.  The entries are kept in ascending order of their names, so
that maps with the same look-ups are equal.

* `Properties.get?`        the value of a name;
* `Properties.insert`      the map with a value put in place of the old one;
* `Properties.or`          a map with its gaps filled from another one;
* `Properties.ofList`      the map of a list, where later entries win;
* `Properties.mapValues`   new values under the old names.

Main statements: `ext_get?`, and one look-up lemma for each operation.
-/

namespace EditorConfig

structure Properties where
  entries : List (Text × Text)
  ascending : entries.Pairwise fun a b => a.1 < b.1
deriving DecidableEq, Repr

namespace Properties

/-! ## Entries in order -/

def find? (name : Text) : List (Text × Text) → Option Text
  | [] => none
  | (n, v) :: es => if n = name then some v else find? name es

def put (name value : Text) : List (Text × Text) → List (Text × Text)
  | [] => [(name, value)]
  | (n, v) :: es =>
    if name < n then (name, value) :: (n, v) :: es
    else if n = name then (name, value) :: es
    else (n, v) :: put name value es

theorem mem_put {name value : Text} {es : List (Text × Text)} {e : Text × Text}
    (h : e ∈ put name value es) : e = (name, value) ∨ e ∈ es := by
  induction es with
  | nil => simpa [put] using h
  | cons d es ih =>
    unfold put at h
    split at h
    · simpa using h
    · split at h
      · rcases List.mem_cons.1 h with h | h
        · exact .inl h
        · exact .inr (by simp [h])
      · rcases List.mem_cons.1 h with h | h
        · exact .inr (by simp [h])
        · exact (ih h).imp id (List.mem_cons_of_mem _)

theorem ascending_put {name value : Text} {es : List (Text × Text)}
    (h : es.Pairwise fun a b => a.1 < b.1) :
    (put name value es).Pairwise fun a b => a.1 < b.1 := by
  induction es with
  | nil => simp [put]
  | cons d es ih =>
    have ⟨hd, hes⟩ := List.pairwise_cons.1 h
    unfold put
    split
    · next hlt =>
      refine List.pairwise_cons.2 ⟨fun e he => ?_, h⟩
      rcases List.mem_cons.1 he with rfl | he
      · exact hlt
      · exact List.lt_trans hlt (hd e he)
    · next hge =>
      split
      · next heq => exact List.pairwise_cons.2 ⟨fun e he => heq ▸ hd e he, hes⟩
      · next hne =>
        refine List.pairwise_cons.2 ⟨fun e he => ?_, ih hes⟩
        rcases mem_put he with rfl | he
        · exact ((Std.lt_trichotomy name d.1).resolve_left hge).resolve_left (Ne.symm hne)
        · exact hd e he

theorem find?_put (name value query : Text) (es : List (Text × Text)) :
    find? query (put name value es) = if name = query then some value else find? query es := by
  induction es with
  | nil => simp [put, find?]
  | cons d es ih =>
    unfold put
    split
    · simp [find?]
    · split
      · next heq =>
        simp only [find?, heq]
        split <;> simp_all
      · next hne =>
        simp only [find?, ih]
        split
        · next heq =>
          rw [if_neg]
          rintro rfl
          exact hne heq
        · rfl

theorem find?_eq_none_of_lt {name : Text} {es : List (Text × Text)}
    (h : ∀ e ∈ es, name < e.1) : find? name es = none := by
  induction es with
  | nil => rfl
  | cons d es ih =>
    have hd := h d (by simp)
    rw [find?, if_neg, ih fun e he => h e (by simp [he])]
    intro heq
    rw [heq] at hd
    exact List.lt_irrefl _ hd

theorem eq_of_find?_eq {es fs : List (Text × Text)} (hes : es.Pairwise fun a b => a.1 < b.1)
    (hfs : fs.Pairwise fun a b => a.1 < b.1) (h : ∀ name, find? name es = find? name fs) :
    es = fs := by
  induction es generalizing fs with
  | nil =>
    cases fs with
    | nil => rfl
    | cons f fs =>
      have := h f.1
      simp [find?] at this
  | cons e es ih =>
    have ⟨he, hes⟩ := List.pairwise_cons.1 hes
    cases fs with
    | nil =>
      have := h e.1
      simp [find?] at this
    | cons f fs =>
      have ⟨hf, hfs'⟩ := List.pairwise_cons.1 hfs
      have names : e.1 = f.1 := by
        have below {a b : Text × Text} {as bs : List (Text × Text)}
            (hb : ∀ d ∈ bs, b.1 < d.1)
            (h : find? a.1 (a :: as) = find? a.1 (b :: bs)) : ¬a.1 < b.1 := by
          intro hlt
          have : find? a.1 (b :: bs) = none := find?_eq_none_of_lt fun d hd => by
            rcases List.mem_cons.1 hd with rfl | hd
            · exact hlt
            · exact List.lt_trans hlt (hb d hd)
          rw [this] at h
          simp [find?] at h
        rcases Std.lt_trichotomy e.1 f.1 with hlt | heq | hlt
        · exact absurd hlt (below hf (h e.1))
        · exact heq
        · exact absurd hlt (below he (h f.1).symm)
      have values : e.2 = f.2 := by
        have := h e.1
        simpa [find?, names] using this
      have heads : e = f := Prod.ext names values
      subst heads
      refine congrArg (e :: ·) (ih hes hfs' fun name => ?_)
      by_cases hn : e.1 = name
      · subst hn
        rw [find?_eq_none_of_lt he, find?_eq_none_of_lt hf]
      · have := h name
        simpa [find?, hn] using this

/-! ## Maps -/

def empty : Properties := ⟨[], .nil⟩

def get? (ps : Properties) (name : Text) : Option Text := find? name ps.entries

def contains (ps : Properties) (name : Text) : Bool := (ps.get? name).isSome

def insert (ps : Properties) (name value : Text) : Properties :=
  ⟨put name value ps.entries, ascending_put ps.ascending⟩

/-- The map `ps`, with the names that it lacks taken from `qs`. -/
def or (ps qs : Properties) : Properties :=
  ps.entries.foldl (fun m (n, v) => m.insert n v) qs

/-- The map of a list, where later entries win. -/
def ofList (es : List (Text × Text)) : Properties :=
  es.foldl (fun m (n, v) => m.insert n v) empty

def mapValues (f : Text → Text → Text) (ps : Properties) : Properties where
  entries := ps.entries.map fun (n, v) => (n, f n v)
  ascending := List.pairwise_map.2 ps.ascending

/-- Maps with the same look-ups are equal. -/
theorem ext_get? {ps qs : Properties} (h : ∀ name, ps.get? name = qs.get? name) : ps = qs := by
  cases ps with
  | mk es hes =>
    cases qs with
    | mk fs hfs =>
      congr 1
      exact eq_of_find?_eq hes hfs h

@[simp] theorem get?_empty (name : Text) : empty.get? name = none := rfl

theorem get?_insert (ps : Properties) (name value query : Text) :
    (ps.insert name value).get? query = if name = query then some value else ps.get? query :=
  find?_put name value query ps.entries

/-- The value of the last entry with the name in question. -/
def lastValue? (query : Text) : List (Text × Text) → Option Text
  | [] => none
  | (n, v) :: es => (lastValue? query es).or (if n = query then some v else none)

theorem get?_foldl_insert (es : List (Text × Text)) (ps : Properties) (query : Text) :
    (es.foldl (fun m (n, v) => m.insert n v) ps).get? query
      = (lastValue? query es).or (ps.get? query) := by
  induction es generalizing ps with
  | nil => rfl
  | cons e es ih =>
    rw [List.foldl_cons, ih, get?_insert]
    simp only [lastValue?]
    cases lastValue? query es <;> simp
    split <;> simp

theorem get?_ofList (es : List (Text × Text)) (query : Text) :
    (ofList es).get? query = lastValue? query es := by
  rw [ofList, get?_foldl_insert, get?_empty, Option.or_none]

theorem lastValue?_eq_find? {es : List (Text × Text)}
    (h : es.Pairwise fun a b => a.1 < b.1) (query : Text) :
    lastValue? query es = find? query es := by
  induction es with
  | nil => rfl
  | cons e es ih =>
    have ⟨he, hes⟩ := List.pairwise_cons.1 h
    simp only [lastValue?, find?, ih hes]
    split
    · next heq =>
      subst heq
      rw [find?_eq_none_of_lt he]
      rfl
    · simp

theorem find?_of_mem {es : List (Text × Text)} (h : es.Pairwise fun a b => a.1 < b.1)
    {e : Text × Text} (he : e ∈ es) : find? e.1 es = some e.2 := by
  induction es with
  | nil => cases he
  | cons d es ih =>
    have ⟨hd, hes⟩ := List.pairwise_cons.1 h
    rcases List.mem_cons.1 he with rfl | he
    · exact if_pos rfl
    · have hne : d.1 ≠ e.1 := by
        intro heq
        have := hd e he
        rw [heq] at this
        exact List.lt_irrefl _ this
      rw [find?, if_neg hne]
      exact ih hes he

theorem mem_of_lastValue? {es : List (Text × Text)} {name value : Text}
    (h : lastValue? name es = some value) : (name, value) ∈ es := by
  induction es with
  | nil => cases h
  | cons d es ih =>
    rcases Option.or_eq_some_iff.1 h with h | ⟨-, h⟩
    · exact List.mem_cons_of_mem _ (ih h)
    · split at h
      · next heq =>
        obtain rfl := Option.some.inj h
        rw [← heq]
        exact List.mem_cons_self
      · cases h

/-- The map of a list has no other entries. -/
theorem mem_ofList {es : List (Text × Text)} {e : Text × Text} (h : e ∈ (ofList es).entries) :
    e ∈ es := by
  have hget : (ofList es).get? e.1 = some e.2 := find?_of_mem (ofList es).ascending h
  rw [get?_ofList] at hget
  exact mem_of_lastValue? hget

/-- The map of its own entries is the map itself. -/
theorem ofList_entries (ps : Properties) : ofList ps.entries = ps := by
  apply ext_get?
  intro name
  rw [get?_ofList, lastValue?_eq_find? ps.ascending]
  rfl

theorem get?_or (ps qs : Properties) (query : Text) :
    (ps.or qs).get? query = (ps.get? query).or (qs.get? query) := by
  rw [or, get?_foldl_insert, lastValue?_eq_find? ps.ascending]
  rfl

theorem get?_mapValues (f : Text → Text → Text) (ps : Properties) (query : Text) :
    (ps.mapValues f).get? query = (ps.get? query).map (f query) := by
  unfold get? mapValues
  simp only
  induction ps.entries with
  | nil => rfl
  | cons e es ih =>
    simp only [List.map_cons, find?]
    split
    · next heq => simp [heq]
    · exact ih

end Properties

end EditorConfig
