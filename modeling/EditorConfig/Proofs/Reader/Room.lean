import EditorConfig.Proofs.Reader.History

/-!
# Readers with more room

Two readers get the same calls, and no file changes meanwhile.  The cache of the first one has less
room than that of the second one.

* `Cache.LimitLe`         the second limit leaves no less room than the first one;
* `Source.AlikeByParts`   of two paths with the same parts, both can be read or neither;
* `Reader.Call.From`      the call, if it is a reading, reads from the given source;
* `Reader.Trails`         the reader with less room beside the other one.

What is asked for comes to the front of both caches, and a limit cuts at the back: so the keys of
the first cache stay the first keys of the second one.  A path that cannot be read comes to the
front of neither, since what the second cache keeps was read once and can be read again.

Main statement: a reader with more room keeps what the other one keeps, in the same order and in
front of the rest, and never asks the source where the other one does not (`run_roomier`).
-/

namespace EditorConfig

/-! ## Limits -/

namespace Cache

/-- The second limit leaves no less room than the first one. -/
def LimitLe (small large : Option Nat) : Prop :=
  ∀ n, large = some n → ∃ m, small = some m ∧ m ≤ n

theorem within_isPrefix {α : Type} (limit : Option Nat) (l : List α) : within limit l <+: l := by
  cases limit with
  | none => exact List.prefix_rfl
  | some n => exact List.take_prefix n l

/-- What is cut to less room is in front of what is cut to more. -/
theorem within_prefix_within {α : Type} {small large : Option Nat} (h : LimitLe small large)
    {l k : List α} (hlk : l <+: k) : within small l <+: within large k := by
  have hk : within small l <+: k := (within_isPrefix small l).trans hlk
  cases large with
  | none => exact hk
  | some n =>
    obtain ⟨m, rfl, hmn⟩ := h n rfl
    have hlength : (l.take m).length ≤ n := Nat.le_trans (List.length_take_le m l) hmn
    exact List.prefix_take_iff.2 ⟨hk, hlength⟩

variable {κ : Type} [DecidableEq κ]

/-- The same key comes to the front of both. -/
theorem front_prefix_front (k : κ) {ks ls : List κ} (h : ks <+: ls) :
    (k :: ks.filter fun j => j ≠ k) <+: k :: ls.filter fun j => j ≠ k :=
  (List.prefix_cons_inj k).2 (h.filter _)

theorem mem_of_mem_front {k j : κ} {ks : List κ} (h : j ∈ k :: ks.filter fun i => i ≠ k) :
    j = k ∨ j ∈ ks := by
  rcases List.mem_cons.1 h with rfl | h
  · exact .inl rfl
  · exact .inr (List.mem_filter.1 h).1

end Cache

/-! ## Sources and calls -/

/-- Of two paths with the same parts, both can be read or neither. -/
def Source.AlikeByParts (src : Source) : Prop :=
  ∀ p q, Path.parts p = Path.parts q → (src p).isOk = (src q).isOk

namespace Reader

/-- The call, if it is a reading, reads from this source. -/
def Call.From (src : Source) : Call → Prop
  | .read src' _ => src' = src
  | .invalidate _ => True
  | .clear => True

/-! ## Two readers side by side -/

/-- The first reader has less room than the second one.  It keeps the first ones of the keys that
the second one keeps, and it has asked for whatever the second one has asked for.  All that is kept
can be read. -/
structure Trails (src : Source) (small large : Option Nat) (r s : Reader)
    (c d : Cache (List Path.Part) Snapshot) : Prop where
  cache_left : r.cache = some c
  cache_right : s.cache = some d
  limit_left : c.limit = small
  limit_right : d.limit = large
  keys : c.keys <+: d.keys
  readable : ∀ path, Path.parts path ∈ d.keys → (src path).isOk = true
  asked : s.asked.Sublist r.asked

section
variable {src : Source} {small large : Option Nat} {r s : Reader}
  {c d : Cache (List Path.Part) Snapshot}

theorem trails_opened (src : Source) (small large : Option Nat) :
    Trails src small large (opened small) (opened large) (.empty small) (.empty large) where
  cache_left := rfl
  cache_right := rfl
  limit_left := rfl
  limit_right := rfl
  keys := List.prefix_rfl
  readable := by
    intro path h
    cases h
  asked := List.Sublist.refl _

/-- A path that can be read comes to the front, and all that is kept can still be read. -/
theorem Trails.readable_front (h : Trails src small large r s c d) (hsrc : src.AlikeByParts)
    {path : Text} (hpath : (src path).isOk = true) {q : Text}
    (hq : Path.parts q ∈ Path.parts path :: d.keys.filter fun j => j ≠ Path.parts path) :
    (src q).isOk = true := by
  rcases Cache.mem_of_mem_front hq with hq | hq
  · rw [hsrc q path hq, hpath]
  · exact h.readable q hq

/-- What the second reader keeps comes to its front; the first reader keeps it, too, or asks. -/
theorem Trails.read_kept (h : Trails src small large r s c d) (hsrc : src.AlikeByParts)
    {path : Text} (hkept : Path.parts path ∈ d.keys) :
    ∃ c' d', Trails src small large (r.read src path).2 (s.read src path).2 c' d' := by
  have hfront := Cache.front_prefix_front (Path.parts path) h.keys
  have hok : (src path).isOk = true := h.readable path hkept
  cases hd : d.request? (Path.parts path) with
  | none => exact absurd hkept (Cache.request?_eq_none_iff.1 hd)
  | some found =>
    obtain ⟨file, d'⟩ := found
    have hkeys := Cache.keys_request? hd
    have hlarge : d'.limit = large := by
      rw [(Cache.request?_eq_some hd).2]
      exact h.limit_right
    have hreadable (q : Text) (hq : Path.parts q ∈ d'.keys) : (src q).isOk = true :=
      h.readable_front hsrc hok (hkeys ▸ hq)
    rw [read_of_request? h.cache_right hd]
    cases hc : c.request? (Path.parts path) with
    | some found =>
      obtain ⟨file', c'⟩ := found
      have hsmall : c'.limit = small := by
        rw [(Cache.request?_eq_some hc).2]
        exact h.limit_left
      rw [read_of_request? h.cache_left hc]
      refine ⟨c', d', rfl, rfl, hsmall, hlarge, ?_, hreadable, h.asked⟩
      rw [Cache.keys_request? hc, hkeys]
      exact hfront
    | none =>
      have hnew := Cache.request?_eq_none_iff.1 hc
      cases hfile : src path with
      | error e =>
        rw [hfile] at hok
        cases hok
      | ok file' =>
        rw [read_ok h.cache_left hnew hfile]
        refine ⟨_, d', rfl, rfl, h.limit_left, hlarge, ?_, hreadable,
          h.asked.trans (List.sublist_append_left _ _)⟩
        rw [Cache.keys_store, hkeys]
        exact (Cache.within_isPrefix _ _).trans hfront

/-- What the second reader does not keep, neither does the first one, so that both ask. -/
theorem Trails.read_new (h : Trails src small large r s c d) (hlimit : Cache.LimitLe small large)
    (hsrc : src.AlikeByParts) {path : Text} (hnew : Path.parts path ∉ d.keys) :
    ∃ c' d', Trails src small large (r.read src path).2 (s.read src path).2 c' d' := by
  have hleft : Path.parts path ∉ c.keys := fun hm => hnew (h.keys.mem hm)
  have hasked : (s.asked ++ [path]).Sublist (r.asked ++ [path]) := h.asked.append_right [path]
  cases hfile : src path with
  | error e =>
    rw [read_error h.cache_left hleft hfile, read_error h.cache_right hnew hfile]
    exact ⟨c, d, h.cache_left, h.cache_right, h.limit_left, h.limit_right, h.keys, h.readable,
      hasked⟩
  | ok file =>
    have hok : (src path).isOk = true := by
      rw [hfile]
      rfl
    rw [read_ok h.cache_left hleft hfile, read_ok h.cache_right hnew hfile]
    refine ⟨_, _, rfl, rfl, h.limit_left, h.limit_right, ?_, fun q hq => ?_, hasked⟩
    · rw [Cache.keys_store, Cache.keys_store, h.limit_left, h.limit_right]
      exact Cache.within_prefix_within hlimit (Cache.front_prefix_front _ h.keys)
    · rw [Cache.keys_store] at hq
      exact h.readable_front hsrc hok ((Cache.within_isPrefix _ _).mem hq)

theorem Trails.read (h : Trails src small large r s c d) (hlimit : Cache.LimitLe small large)
    (hsrc : src.AlikeByParts) (path : Text) :
    ∃ c' d', Trails src small large (r.read src path).2 (s.read src path).2 c' d' := by
  by_cases hkept : Path.parts path ∈ d.keys
  · exact h.read_kept hsrc hkept
  · exact h.read_new hlimit hsrc hkept

theorem Trails.invalidate (h : Trails src small large r s c d) (path : Text) :
    Trails src small large (r.invalidate path) (s.invalidate path) (c.erase (Path.parts path))
      (d.erase (Path.parts path)) where
  cache_left := by
    rw [Reader.invalidate, h.cache_left]
    rfl
  cache_right := by
    rw [Reader.invalidate, h.cache_right]
    rfl
  limit_left := h.limit_left
  limit_right := h.limit_right
  keys := by
    rw [Cache.keys_erase, Cache.keys_erase]
    exact h.keys.filter _
  readable := by
    intro q hq
    rw [Cache.keys_erase] at hq
    exact h.readable q (List.mem_filter.1 hq).1
  asked := h.asked

theorem Trails.clear (h : Trails src small large r s c d) :
    Trails src small large r.clear s.clear c.clear d.clear where
  cache_left := by
    rw [Reader.clear, h.cache_left]
    rfl
  cache_right := by
    rw [Reader.clear, h.cache_right]
    rfl
  limit_left := h.limit_left
  limit_right := h.limit_right
  keys := List.prefix_rfl
  readable := by
    intro q hq
    cases hq
  asked := h.asked

theorem Trails.call (h : Trails src small large r s c d) (hlimit : Cache.LimitLe small large)
    (hsrc : src.AlikeByParts) {x : Call} (hx : x.From src) :
    ∃ c' d', Trails src small large (r.call x) (s.call x) c' d' := by
  cases x with
  | read src' path =>
    obtain rfl : src' = src := hx
    exact h.read hlimit hsrc path
  | invalidate path => exact ⟨_, _, h.invalidate path⟩
  | clear => exact ⟨_, _, h.clear⟩

theorem Trails.run (h : Trails src small large r s c d) (hlimit : Cache.LimitLe small large)
    (hsrc : src.AlikeByParts) {calls : List Call} (hcalls : ∀ x ∈ calls, x.From src) :
    ∃ c' d', Trails src small large (r.run calls) (s.run calls) c' d' := by
  induction calls generalizing r s c d with
  | nil => exact ⟨c, d, h⟩
  | cons x calls ih =>
    obtain ⟨hx, hcalls⟩ := List.forall_mem_cons.1 hcalls
    obtain ⟨c', d', h'⟩ := h.call hlimit hsrc hx
    exact ih h' hcalls

end

/-- **A reader with more room never asks for more.**  Take two readers whose caches began empty,
the second one with no less room than the first one, and the same calls for both.  No file changes,
and whether a path can be read depends on its parts only.  Then the keys that the first reader keeps
are the first ones of those that the second one keeps, the last one asked for in front.  Where the
next reading asks the source for the second reader, it does so for the first one; and so far the
second reader has asked for some of what the first one has asked for, in the same order. -/
theorem run_roomier {small large : Option Nat} (hlimit : Cache.LimitLe small large) {src : Source}
    (hsrc : src.AlikeByParts) {calls : List Call} (hcalls : ∀ x ∈ calls, x.From src) :
    let r := (opened small).run calls
    let s := (opened large).run calls
    r.held.map Prod.fst <+: s.held.map Prod.fst ∧
      (∀ path, s.Asks src path → r.Asks src path) ∧ s.asked.Sublist r.asked := by
  intro r s
  obtain ⟨c, d, h⟩ := (trails_opened src small large).run hlimit hsrc hcalls
  rw [keys_eq h.cache_left, keys_eq h.cache_right]
  refine ⟨h.keys, fun path hasks => ?_, h.asked⟩
  rw [asks_iff h.cache_right] at hasks
  rw [asks_iff h.cache_left]
  exact fun hm => hasks (h.keys.mem hm)

/-- With room for one snapshot and for two: the last one read is dropped under another spelling, and
a path that is missing is kept by neither.  Then the first reader has nothing left. -/
theorem run_roomier_two :
    let src : Source := fun path =>
      if Path.parts path = Path.parts "/c".toList then .error (.missing path) else .ok {}
    let calls : List Call := [.read src "/a".toList, .read src "/b".toList,
      .invalidate "//b/.".toList, .read src "/c".toList]
    Cache.LimitLe (some 1) (some 2) ∧ src.AlikeByParts ∧ (∀ x ∈ calls, x.From src) ∧
      ((opened (some 1)).run calls).held.map Prod.fst
        <+: ((opened (some 2)).run calls).held.map Prod.fst ∧
      ((opened (some 1)).run calls).Asks src "/a".toList ∧
      ¬((opened (some 2)).run calls).Asks src "/a".toList := by
  intro src calls
  have hlimit : Cache.LimitLe (some 1) (some 2) := by
    rintro n ⟨rfl⟩
    exact ⟨1, rfl, by decide⟩
  have hsrc : src.AlikeByParts := by
    intro p q h
    by_cases hc : Path.parts q = Path.parts "/c".toList
    · rw [show src p = .error (.missing p) from if_pos (h.trans hc),
        show src q = .error (.missing q) from if_pos hc]
      rfl
    · rw [show src p = .ok {} from if_neg (h ▸ hc), show src q = .ok {} from if_neg hc]
  have hcalls : ∀ x ∈ calls, x.From src := by simp [calls, Call.From]
  obtain ⟨hkeys, -⟩ := run_roomier hlimit hsrc hcalls
  exact ⟨hlimit, hsrc, hcalls, hkeys, by decide, by decide⟩

end Reader

end EditorConfig
