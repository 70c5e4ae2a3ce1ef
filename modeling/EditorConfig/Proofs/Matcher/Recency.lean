import Mathlib.Data.List.Induction
import EditorConfig.Proofs.Faithful

/-!
# The selectors that a matcher keeps

* `Matcher.asked`    the selectors asked for since the last clear, the last one in front;
* `Matcher.recent`   the same without repetitions;
* `Matcher.Keeps`    what is kept after some calls: as much of the recent selectors as the limit
                     lets stay, with patterns that were made before.

Moving a key to the front and then cutting gives the same keys whether the list was cut before or
not (`Cache.within_front`): so a limit never changes the order.

Main statement: what a matcher keeps after any calls, and what the next request gives
(`run_recent`).
-/

namespace EditorConfig

/-! ## Cutting a list and moving a key to its front -/

namespace Cache

variable {κ : Type} [DecidableEq κ] {limit : Option Nat} {k : κ} {ks : List κ}

theorem filter_ne_eq_self (h : k ∉ ks) : (ks.filter fun j => j ≠ k) = ks := by
  rw [List.filter_eq_self]
  intro j hj
  have hne : j ≠ k := by
    rintro rfl
    exact h hj
  simpa using hne

/-- Only one key goes, so one more key in front of the cut is enough. -/
theorem take_filter_ne (hks : ks.Nodup) (n : Nat) :
    ((ks.take (n + 1)).filter fun j => j ≠ k).take n = (ks.filter fun j => j ≠ k).take n := by
  induction ks generalizing n with
  | nil => rfl
  | cons j ks ih =>
    obtain ⟨hj, hks⟩ := List.nodup_cons.1 hks
    rw [List.take_succ_cons]
    by_cases hjk : j = k
    · have hall : (ks.filter fun i => i ≠ k) = ks := filter_ne_eq_self (hjk ▸ hj)
      have hcut : ((ks.take n).filter fun i => i ≠ k) = ks.take n :=
        filter_ne_eq_self fun hk => hj (hjk ▸ List.mem_of_mem_take hk)
      rw [List.filter_cons_of_neg (by simpa using hjk),
        List.filter_cons_of_neg (by simpa using hjk), hall, hcut, List.take_take, Nat.min_self]
    · rw [List.filter_cons_of_pos (by simpa using hjk),
        List.filter_cons_of_pos (by simpa using hjk)]
      cases n with
      | zero => rfl
      | succ n => rw [List.take_succ_cons, List.take_succ_cons, ih hks]

/-- A new key in front: the keys that were cut before would be cut now. -/
theorem within_front (hlimit : limit ≠ some 0) (hks : ks.Nodup) :
    within limit (k :: (within limit ks).filter fun j => j ≠ k)
      = within limit (k :: ks.filter fun j => j ≠ k) := by
  cases limit with
  | none => rfl
  | some n =>
    cases n with
    | zero => exact absurd rfl hlimit
    | succ n =>
      show k :: ((ks.take (n + 1)).filter _).take n = k :: (ks.filter _).take n
      rw [take_filter_ne hks]

/-- A key that was there already: nothing is cut. -/
theorem within_front_of_mem (hk : k ∈ within limit ks) :
    within limit (k :: (within limit ks).filter fun j => j ≠ k)
      = k :: (within limit ks).filter fun j => j ≠ k := by
  cases limit with
  | none => rfl
  | some n =>
    have hfewer : ((ks.take n).filter fun j => j ≠ k).length < (ks.take n).length :=
      List.length_filter_lt_length_iff_exists.2 ⟨k, hk, by simp⟩
    have htake : (ks.take n).length ≤ n := List.length_take_le n ks
    apply List.take_of_length_le
    rw [List.length_cons]
    show ((ks.take n).filter fun j => j ≠ k).length + 1 ≤ n
    omega

end Cache

/-! ## Recent selectors -/

namespace Matcher

/-- The selector that a call asks for. -/
def Call.selector? : Call → Option Text
  | .pattern selector => some selector
  | .selects selector _ => some selector
  | .clear => none

/-- The selectors asked for since the last clear, the last one in front. -/
def asked (xs : List Call) : List Text :=
  (xs.reverse.takeWhile fun x => x ≠ .clear).filterMap Call.selector?

/-- The selectors asked for since the last clear, each where it was asked for last. -/
def recent (xs : List Call) : List Text := (asked xs).eraseDups

theorem asked_concat {x : Call} {selector : Text} (hx : x.selector? = some selector)
    (xs : List Call) : asked (xs ++ [x]) = selector :: asked xs := by
  have hne : x ≠ .clear := by
    rintro rfl
    cases hx
  rw [asked, List.reverse_concat, List.takeWhile_cons_of_pos (by simpa using hne),
    List.filterMap_cons_some hx]
  rfl

theorem asked_concat_clear (xs : List Call) : asked (xs ++ [.clear]) = [] := by
  rw [asked, List.reverse_concat, List.takeWhile_cons_of_neg (by simp)]
  rfl

/-- The items that stay keep the order in which they first came. -/
theorem filter_eraseDups (p : Text → Bool) (l : List Text) :
    (l.filter p).eraseDups = l.eraseDups.filter p := by
  cases l with
  | nil => rfl
  | cons a l =>
    have hcomm : ((l.filter fun b => !b == a).filter p) = (l.filter p).filter fun b => !b == a := by
      rw [List.filter_filter, List.filter_filter]
      simp only [Bool.and_comm]
    have ih := filter_eraseDups p (l.filter fun b => !b == a)
    rw [List.eraseDups_cons]
    by_cases ha : p a = true
    · rw [List.filter_cons_of_pos ha, List.filter_cons_of_pos ha, List.eraseDups_cons, ← hcomm, ih]
    · have hother : ((l.filter p).filter fun b => !b == a) = l.filter p := by
        rw [List.filter_eq_self]
        intro b hb
        have hne : b ≠ a := by
          rintro rfl
          exact ha (List.mem_filter.1 hb).2
        simpa using hne
      rw [List.filter_cons_of_neg ha, List.filter_cons_of_neg ha, ← ih, hcomm, hother]
termination_by l.length
decreasing_by
  have hle := List.length_filter_le (fun b => !b == a) l
  simp only [List.length_cons]
  omega

theorem recent_concat {x : Call} {selector : Text} (hx : x.selector? = some selector)
    (xs : List Call) :
    recent (xs ++ [x]) = selector :: (recent xs).filter fun s => s ≠ selector := by
  have hother (s : Text) : (!s == selector) = decide (s ≠ selector) := by
    rw [beq_eq_decide, decide_not]
  rw [recent, asked_concat hx, List.eraseDups_cons, filter_eraseDups]
  simp only [hother]
  rfl

theorem recent_concat_clear (xs : List Call) : recent (xs ++ [.clear]) = [] := by
  rw [recent, asked_concat_clear]
  rfl

theorem nodup_recent (xs : List Call) : (recent xs).Nodup := by
  induction xs using List.reverseRecOn with
  | nil => exact List.nodup_nil
  | append_singleton xs x ih =>
    cases hx : x.selector? with
    | some selector =>
      rw [recent_concat hx]
      exact Cache.nodup_front selector ih
    | none =>
      cases x with
      | clear =>
        rw [recent_concat_clear]
        exact List.nodup_nil
      | _ => cases hx

/-! ## Every call -/

/-- What is kept after some calls.  Every pattern that is kept was made before. -/
structure Keeps (limit : Option Nat) (xs : List Call) (m : Matcher) (c : Cache Text Made) :
    Prop where
  cache_eq : m.cache = some c
  limit_eq : c.limit = limit
  keys_eq : c.keys = Cache.within limit (recent xs)
  made : c.Holds fun _ p => p.number < m.made

variable {limit : Option Nat} {xs : List Call} {m : Matcher} {c : Cache Text Made}

theorem request_of_hit [Regex.Engine] {d : Cache Text Made} {p : Made} {selector : Text}
    (hc : m.cache = some c) (hr : c.request? selector = some (p, d)) :
    m.request selector = (p, { m with cache := some d }) := by
  simp only [request, hc, hr]

theorem request_of_miss [Regex.Engine] {selector : Text} (hc : m.cache = some c)
    (hr : c.request? selector = none) : m.request selector
      = (m.make selector, ⟨some (c.store selector (m.make selector)), m.made + 1⟩) := by
  simp only [request, hc, hr]

theorem keeps_opened (limit : Option Nat) :
    Keeps limit [] (opened (some limit)) (.empty limit) where
  cache_eq := rfl
  limit_eq := rfl
  keys_eq := by
    cases limit with
    | none => rfl
    | some n => exact List.take_nil.symm
  made := Cache.holds_empty limit

/-- A request keeps its selector in front, whether it was kept or not. -/
theorem keeps_request [Regex.Engine] (hlimit : limit ≠ some 0) (h : Keeps limit xs m c) {x : Call}
    {selector : Text} (hx : x.selector? = some selector) :
    ∃ d, Keeps limit (xs ++ [x]) (m.request selector).2 d := by
  have hfront : Cache.within limit (recent (xs ++ [x]))
      = Cache.within limit (selector :: c.keys.filter fun j => j ≠ selector) := by
    rw [recent_concat hx, h.keys_eq, Cache.within_front hlimit (nodup_recent xs)]
  cases hr : c.request? selector with
  | some found =>
    obtain ⟨p, d⟩ := found
    have hmem : selector ∈ c.keys := by
      apply Decidable.byContradiction
      intro hnot
      rw [Cache.request?_eq_none_iff.2 hnot] at hr
      cases hr
    refine ⟨d, ?_⟩
    rw [request_of_hit h.cache_eq hr]
    refine ⟨rfl, ?_, ?_, (Cache.holds_request? h.made hr).2⟩
    · rw [(Cache.request?_eq_some hr).2]
      exact h.limit_eq
    · rw [hfront, Cache.keys_request? hr, h.keys_eq, Cache.within_front_of_mem]
      rw [← h.keys_eq]
      exact hmem
  | none =>
    refine ⟨c.store selector (m.make selector), ?_⟩
    rw [request_of_miss h.cache_eq hr]
    refine ⟨rfl, h.limit_eq, ?_, ?_⟩
    · rw [hfront, Cache.keys_store, h.limit_eq]
    · have hold : c.Holds fun _ p => p.number < m.made + 1 :=
        fun e he => Nat.lt_succ_of_lt (h.made e he)
      exact Cache.holds_store hold (Nat.lt_succ_self m.made)

theorem keeps_clear (h : Keeps limit xs m c) : Keeps limit (xs ++ [.clear]) m.clear c.clear where
  cache_eq := by
    rw [clear, h.cache_eq]
    rfl
  limit_eq := h.limit_eq
  keys_eq := by
    rw [recent_concat_clear]
    exact (keeps_opened limit).keys_eq
  made := Cache.holds_clear c

theorem keeps_call [Regex.Engine] (hlimit : limit ≠ some 0) (h : Keeps limit xs m c) (x : Call) :
    ∃ d, Keeps limit (xs ++ [x]) (m.call x) d := by
  cases x with
  | pattern selector => exact keeps_request hlimit h rfl
  | selects selector path => exact keeps_request hlimit h rfl
  | clear => exact ⟨c.clear, keeps_clear h⟩

theorem keeps_run [Regex.Engine] (hlimit : limit ≠ some 0) (xs : List Call) :
    ∃ c, Keeps limit xs ((opened (some limit)).run xs) c := by
  induction xs using List.reverseRecOn with
  | nil => exact ⟨.empty limit, keeps_opened limit⟩
  | append_singleton xs x ih =>
    obtain ⟨c, h⟩ := ih
    rw [run_concat]
    exact keeps_call hlimit h x

/-- A request gives the pattern that is kept for its selector, or one that is not kept at all. -/
theorem Keeps.request [Regex.Engine] (h : Keeps limit xs m c) (selector : Text) :
    ((selector, (m.request selector).1) ∈ c.entries ↔ selector ∈ c.keys) ∧
      (selector ∉ c.keys → ∀ e ∈ c.entries, (m.request selector).1.number ≠ e.2.number) := by
  cases hr : c.request? selector with
  | some found =>
    obtain ⟨p, d⟩ := found
    have hmem := (Cache.request?_eq_some hr).1
    have hkey : selector ∈ c.keys := List.mem_map_of_mem hmem
    rw [request_of_hit h.cache_eq hr]
    exact ⟨⟨fun _ => hkey, fun _ => hmem⟩, fun hnot => absurd hkey hnot⟩
  | none =>
    have hnew := Cache.request?_eq_none_iff.1 hr
    rw [request_of_miss h.cache_eq hr]
    refine ⟨⟨fun hmem => List.mem_map_of_mem hmem, fun hkey => absurd hkey hnew⟩, fun _ e he => ?_⟩
    exact Nat.ne_of_gt (h.made e he)

/-- **What a matcher keeps.**  Take a matcher whose cache began empty, with room for at least one
pattern, and any calls.  The selectors that are kept are the first of the recent ones, as many as
the limit lets stay, in their order; each has the pattern of its glob.  The next request gives the
pattern that is kept when its selector is, and otherwise one that was not made before.  So the
matcher selects like one without a cache. -/
theorem run_recent [Regex.Engine] (hlimit : limit ≠ some 0) (xs : List Call) :
    let m := (opened (some limit)).run xs
    ∃ c, m.cache = some c ∧ c.keys = Cache.within limit (recent xs) ∧
      c.size = (Cache.within limit (recent xs)).length ∧
      (∀ e ∈ c.entries, e.2.pattern = Pattern.compile (Selector.anchored e.1)) ∧
      (∀ selector, ((selector, (m.request selector).1) ∈ c.entries ↔ selector ∈ c.keys) ∧
        (selector ∉ c.keys → ∀ e ∈ c.entries, (m.request selector).1.number ≠ e.2.number)) ∧
      ∀ selector path, (m.selects selector path).1 = ((opened none).selects selector path).1 := by
  intro m
  obtain ⟨c, h⟩ := keeps_run hlimit xs
  refine ⟨c, h.cache_eq, h.keys_eq, ?_, faithful_run (faithful_opened (some limit)) xs c h.cache_eq,
    h.request, fun selector path => ?_⟩
  · rw [← h.keys_eq]
    exact (List.length_map Prod.fst).symm
  · exact selects_run (some limit) xs selector path

/-- With room for two patterns: a selector that is asked for again stays, the other one goes. -/
theorem run_recent_two :
    let xs : List Call :=
      [.pattern ['a'], .pattern ['b'], .selects ['a'] ['/', 'a'], .pattern ['c']]
    (some 2 : Option Nat) ≠ some 0 ∧ recent xs = [['c'], ['a'], ['b']] ∧
      ∃ c, ((opened (some (some 2))).run xs).cache = some c ∧ c.keys = [['c'], ['a']] := by
  intro xs
  have hlimit : (some 2 : Option Nat) ≠ some 0 := by decide
  have hrecent : recent xs = [['c'], ['a'], ['b']] := by decide
  obtain ⟨c, hc, hkeys, -⟩ := run_recent hlimit xs
  rw [hrecent] at hkeys
  exact ⟨hlimit, hrecent, c, hc, hkeys⟩

end Matcher

end EditorConfig
