import EditorConfig.Proofs.Faithful

/-!
# What a reader answers when files change

* `Reader.Call`    what may be asked of a reader; a reading comes with the source as it is then;
* `Reader.opened`  a reader with an empty cache, which may have a limit;
* `Reader.run`     a reader after several calls;
* `Reader.held`    the snapshots kept, the last one asked for in front;
* `Reader.Asks`    the reading of a path asks the source;
* `Reader.Given`   the answer of the source the last time that a path was asked for.

A call keeps `Sound`: no path twice, not more than the limit, and every snapshot that is kept was
given.

Main statement: the answer to a reading after any calls (`read_run`).
-/

namespace EditorConfig

namespace Reader

/-! ## Calls -/

inductive Call where
  | read (src : Source) (path : Text)
  | invalidate (path : Text)
  | clear

/-- A reader with an empty cache, which may have a limit. -/
def opened (limit : Option Nat) : Reader := { cache := some (.empty limit) }

/-- The reader after one more call. -/
def call (r : Reader) : Call → Reader
  | .read src path => (r.read src path).2
  | .invalidate path => r.invalidate path
  | .clear => r.clear

def run (r : Reader) (calls : List Call) : Reader := calls.foldl call r

theorem run_concat (r : Reader) (calls : List Call) (x : Call) :
    r.run (calls ++ [x]) = (r.run calls).call x := by
  rw [run, List.foldl_append]
  rfl

/-- The snapshots that are kept, by the parts of their paths, the last one asked for in front. -/
def held (r : Reader) : List (List Path.Part × Snapshot) := (r.cache.map Cache.entries).getD []

/-- The reading of the path asks the source. -/
def Asks (r : Reader) (src : Source) (path : Text) : Prop :=
  (r.read src path).2.asked = r.asked ++ [path]

instance (r : Reader) (src : Source) (path : Text) : Decidable (r.Asks src path) :=
  inferInstanceAs (Decidable (_ = _))

/-! ## One reading -/

section
variable {r : Reader} {c : Cache (List Path.Part) Snapshot} {src : Source} {path : Text}

theorem read_of_request? {file : Snapshot} {d : Cache (List Path.Part) Snapshot}
    (hc : r.cache = some c) (h : c.request? (Path.parts path) = some (file, d)) :
    r.read src path = (.ok file, { r with cache := some d }) := by
  unfold read
  simp only [hc, h]

theorem read_error {e : SourceError} (hc : r.cache = some c) (h : Path.parts path ∉ c.keys)
    (hsrc : src path = .error e) :
    r.read src path = (.error e, { r with asked := r.asked ++ [path] }) := by
  unfold read
  simp only [hc, Cache.request?_eq_none_iff.2 h, hsrc]

theorem read_ok {file : Snapshot} (hc : r.cache = some c) (h : Path.parts path ∉ c.keys)
    (hsrc : src path = .ok file) :
    r.read src path
      = (.ok file, ⟨some (c.store (Path.parts path) file), r.asked ++ [path]⟩) := by
  unfold read
  simp only [hc, Cache.request?_eq_none_iff.2 h, hsrc]

theorem held_eq (hc : r.cache = some c) : r.held = c.entries := by
  rw [held, hc]
  rfl

theorem keys_eq (hc : r.cache = some c) : r.held.map Prod.fst = c.keys := by
  rw [held_eq hc]
  rfl

/-- The source is asked exactly for what is not kept. -/
theorem asks_iff (hc : r.cache = some c) : r.Asks src path ↔ Path.parts path ∉ c.keys := by
  by_cases h : Path.parts path ∈ c.keys
  · cases hr : c.request? (Path.parts path) with
    | none => exact absurd h (Cache.request?_eq_none_iff.1 hr)
    | some found =>
      rw [Asks, read_of_request? hc hr]
      simp [h]
  · cases hsrc : src path with
    | error e =>
      rw [Asks, read_error hc h hsrc]
      simp [h]
    | ok file =>
      rw [Asks, read_ok hc h hsrc]
      simp [h]

end

/-! ## Where snapshots come from -/

/-- The call neither asks the source for a path with these parts nor drops what is kept for one. -/
def Call.Spares (r : Reader) (parts : List Path.Part) : Call → Prop
  | .read src path => Path.parts path = parts → ¬r.Asks src path
  | .invalidate path => Path.parts path ≠ parts
  | .clear => False

/-- The source gave this snapshot the last time that it was asked for a path with these parts, and
no call since then was made to drop what is kept for such a path. -/
def Given (limit : Option Nat) (calls : List Call) (parts : List Path.Part)
    (file : Snapshot) : Prop :=
  ∃ before src path after, calls = before ++ .read src path :: after ∧
    Path.parts path = parts ∧ ((opened limit).run before).Asks src path ∧ src path = .ok file ∧
    ∀ mid x rest, after = mid ++ x :: rest →
      x.Spares ((opened limit).run (before ++ .read src path :: mid)) parts

section
variable {limit : Option Nat} {calls : List Call} {parts : List Path.Part} {file : Snapshot}

theorem Given.concat (h : Given limit calls parts file) {x : Call}
    (hx : x.Spares ((opened limit).run calls) parts) : Given limit (calls ++ [x]) parts file := by
  obtain ⟨before, src, path, after, rfl, hparts, hasks, hsrc, hspares⟩ := h
  refine ⟨before, src, path, after ++ [x], by simp, hparts, hasks, hsrc, ?_⟩
  intro mid y rest he
  rcases List.eq_nil_or_concat rest with rfl | ⟨rest, z, rfl⟩
  · obtain ⟨rfl, hxy⟩ := List.append_inj' he rfl
    obtain rfl := (List.cons.inj hxy).1
    exact hx
  · have hsplit : after ++ [x] = (mid ++ y :: rest) ++ [z] := by simp [he]
    exact hspares mid y rest (List.append_inj' hsplit rfl).1

theorem given_concat_read {src : Source} {path : Text} (hparts : Path.parts path = parts)
    (hasks : ((opened limit).run calls).Asks src path) (hsrc : src path = .ok file) :
    Given limit (calls ++ [.read src path]) parts file := by
  refine ⟨calls, src, path, [], rfl, hparts, hasks, hsrc, ?_⟩
  intro mid x rest he
  simp at he

end

/-! ## Every call -/

/-- What is kept after some calls: every path once, not more than the limit, and what the source
gave. -/
structure Sound (limit : Option Nat) (calls : List Call) (c : Cache (List Path.Part) Snapshot) :
    Prop where
  limit_eq : c.limit = limit
  nodup : c.keys.Nodup
  size_le : ∀ n, limit = some n → c.size ≤ n
  given : c.Holds (Given limit calls)

section
variable {limit : Option Nat} {calls : List Call} {r : Reader}
  {c : Cache (List Path.Part) Snapshot}

theorem sound_opened (limit : Option Nat) : Sound limit [] (.empty limit) where
  limit_eq := rfl
  nodup := List.nodup_nil
  size_le := fun n _ => Nat.zero_le n
  given := Cache.holds_empty limit

theorem sound_read (h : Sound limit calls c) (hc : ((opened limit).run calls).cache = some c)
    (src : Source) (path : Text) :
    ∃ d, (((opened limit).run calls).read src path).2.cache = some d ∧
      Sound limit (calls ++ [.read src path]) d := by
  have hspares (e : List Path.Part × Snapshot) (he : e ∈ c.entries)
      (hkept : Path.parts path = e.1 → Path.parts path ∈ c.keys) :
      Given limit (calls ++ [.read src path]) e.1 e.2 := by
    apply (h.given e he).concat
    intro hparts hasks
    exact (asks_iff hc).1 hasks (hkept hparts)
  cases hr : c.request? (Path.parts path) with
  | some found =>
    obtain ⟨file, d⟩ := found
    obtain ⟨hmem, hd⟩ := Cache.request?_eq_some hr
    have hkey : Path.parts path ∈ c.keys := List.mem_map_of_mem hmem
    refine ⟨d, by rw [read_of_request? hc hr], ?_⟩
    refine ⟨?_, Cache.nodup_request? h.nodup hr, fun n hn => ?_, ?_⟩
    · rw [hd]
      exact h.limit_eq
    · exact Nat.le_trans (Cache.size_request?_le hr) (h.size_le n hn)
    · intro e he
      rw [hd] at he
      rcases List.mem_cons.1 he with rfl | he
      · exact hspares _ hmem fun _ => hkey
      · exact hspares e (Cache.mem_others.1 he).1 fun _ => hkey
  | none =>
    have hnew := Cache.request?_eq_none_iff.1 hr
    have hold (e : List Path.Part × Snapshot) (he : e ∈ c.entries) :
        Given limit (calls ++ [.read src path]) e.1 e.2 := by
      apply hspares e he
      intro hparts
      rw [hparts]
      exact List.mem_map_of_mem he
    cases hsrc : src path with
    | error e =>
      refine ⟨c, by rw [read_error hc hnew hsrc, hc], ?_⟩
      exact ⟨h.limit_eq, h.nodup, h.size_le, hold⟩
    | ok file =>
      refine ⟨c.store (Path.parts path) file, by rw [read_ok hc hnew hsrc], ?_⟩
      refine ⟨h.limit_eq, Cache.nodup_store h.nodup _ _, fun n hn => ?_, ?_⟩
      · exact Cache.size_store_le (h.limit_eq.trans hn) _ _
      · exact Cache.holds_store hold (given_concat_read rfl ((asks_iff hc).2 hnew) hsrc)

theorem sound_invalidate (h : Sound limit calls c) (path : Text) :
    Sound limit (calls ++ [.invalidate path]) (c.erase (Path.parts path)) where
  limit_eq := h.limit_eq
  nodup := Cache.nodup_erase h.nodup _
  size_le := fun n hn => Nat.le_trans (Cache.size_erase_le c _) (h.size_le n hn)
  given := by
    intro e he
    obtain ⟨hmem, hne⟩ := Cache.mem_others.1 he
    exact (h.given e hmem).concat (Ne.symm hne)

theorem sound_clear (h : Sound limit calls c) : Sound limit (calls ++ [.clear]) c.clear where
  limit_eq := h.limit_eq
  nodup := List.nodup_nil
  size_le := fun n _ => Nat.zero_le n
  given := Cache.holds_clear c

theorem sound_call (h : Sound limit calls c) (hc : ((opened limit).run calls).cache = some c)
    (x : Call) :
    ∃ d, ((opened limit).run (calls ++ [x])).cache = some d ∧ Sound limit (calls ++ [x]) d := by
  rw [run_concat]
  cases x with
  | read src path => exact sound_read h hc src path
  | invalidate path =>
    refine ⟨_, ?_, sound_invalidate h path⟩
    show ((opened limit).run calls).cache.map _ = _
    rw [hc]
    rfl
  | clear =>
    refine ⟨_, ?_, sound_clear h⟩
    show ((opened limit).run calls).cache.map _ = _
    rw [hc]
    rfl

theorem sound_run_append (h : Sound limit calls c)
    (hc : ((opened limit).run calls).cache = some c) (more : List Call) :
    ∃ d, ((opened limit).run (calls ++ more)).cache = some d ∧ Sound limit (calls ++ more) d := by
  induction more generalizing calls c with
  | nil =>
    rw [List.append_nil]
    exact ⟨c, hc, h⟩
  | cons x more ih =>
    obtain ⟨d, hd, hsound⟩ := sound_call h hc x
    have hmore := ih hsound hd
    rwa [List.append_assoc] at hmore

theorem sound_run (limit : Option Nat) (calls : List Call) :
    ∃ c, ((opened limit).run calls).cache = some c ∧ Sound limit calls c :=
  sound_run_append (sound_opened limit) rfl calls

end

/-- **What a reader answers when files change.**  Take a reader whose cache began empty, with room
for at least one snapshot, and any calls, each reading with a source of its own.  No two snapshots
are kept for equal paths, and not more of them than the limit.  The next reading asks the source
exactly when nothing is kept for its path.  If it asks, then an error is returned and leaves the
cache as it is, and a snapshot is returned and put in front.  Otherwise it returns what the source
gave the last time that it was asked for such a path, and no call since was to drop that. -/
theorem read_run {limit : Option Nat} (hlimit : limit ≠ some 0) (calls : List Call)
    (src : Source) (path : Text) :
    let r := (opened limit).run calls
    let parts := Path.parts path
    (r.held.map Prod.fst).Nodup ∧ (∀ n, limit = some n → r.held.length ≤ n) ∧
    (r.Asks src path ↔ parts ∉ r.held.map Prod.fst) ∧
    (r.Asks src path →
      (∀ e, src path = .error e →
        (r.read src path).1 = .error e ∧ (r.read src path).2.cache = r.cache) ∧
      ∀ file, src path = .ok file → (r.read src path).1 = .ok file ∧
        ∃ kept, kept <+: r.held ∧ (r.read src path).2.held = (parts, file) :: kept) ∧
    (¬r.Asks src path → (r.read src path).2.asked = r.asked ∧
      ∃ file, (r.read src path).1 = .ok file ∧ Given limit calls parts file) := by
  intro r parts
  obtain ⟨c, hc, h⟩ := sound_run limit calls
  have hasks : r.Asks src path ↔ parts ∉ c.keys := asks_iff hc
  rw [keys_eq hc]
  refine ⟨h.nodup, ?_, hasks, fun ha => ⟨fun e hsrc => ?_, fun file hsrc => ?_⟩, fun ha => ?_⟩
  · rw [held_eq hc]
    exact h.size_le
  · rw [read_error hc (hasks.1 ha) hsrc]
    exact ⟨rfl, rfl⟩
  · have hroom : c.limit ≠ some 0 := by
      rw [h.limit_eq]
      exact hlimit
    rw [read_ok hc (hasks.1 ha) hsrc, held_eq hc]
    exact ⟨rfl, Cache.entries_store hroom (hasks.1 ha) file⟩
  · cases hr : c.request? parts with
    | none => exact absurd (hasks.2 (Cache.request?_eq_none_iff.1 hr)) ha
    | some found =>
      obtain ⟨file, d⟩ := found
      rw [read_of_request? hc hr]
      exact ⟨rfl, file, rfl, h.given _ (Cache.request?_eq_some hr).1⟩

/-- The file changes, but its path is still kept, and another spelling of it gets the old answer. -/
theorem read_run_changed :
    let old : Source := fun _ => .ok { isRoot := true }
    let new : Source := fun _ => .ok { isRoot := false }
    let calls := [Call.read old "/a/.editorconfig".toList]
    (some 1 : Option Nat) ≠ some 0 ∧
      ¬((opened (some 1)).run calls).Asks new "//a/./.editorconfig".toList ∧
      ∃ file, (((opened (some 1)).run calls).read new "//a/./.editorconfig".toList).1 = .ok file ∧
        Given (some 1) calls (Path.parts "//a/./.editorconfig".toList) file := by
  intro old new calls
  have hlimit : (some 1 : Option Nat) ≠ some 0 := by decide
  have hkept : ¬((opened (some 1)).run calls).Asks new "//a/./.editorconfig".toList := by decide
  obtain ⟨-, -, -, -, hanswer⟩ := read_run hlimit calls new "//a/./.editorconfig".toList
  exact ⟨hlimit, hkept, (hanswer hkept).2⟩

end Reader

end EditorConfig
