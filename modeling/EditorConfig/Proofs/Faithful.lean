import EditorConfig.Proofs.Stack

/-!
# What caches hold

* `Cache.Holds`        a property of every entry of a cache;
* `Matcher.Faithful`   the patterns that are kept belong to their selectors;
* `Reader.Faithful`    the snapshots that are kept are those of the source, for paths of a kind;
* `Matcher.Call`       what may be asked of a matcher;
* `Matcher.opened`     a matcher with an empty cache of any size, or without a cache;
* `Matcher.run`        a matcher after several calls.

Main statements: a faithful matcher selects like one without a cache and gives a config file's
matching sections (`faithful_selects`, `faithful_resolution`); a faithful reader answers like the
source (`faithful_read`); after any calls a matcher selects like one without a cache
(`selects_run`).
-/

namespace EditorConfig

/-! ## Entries -/

namespace Cache

variable {κ υ : Type} {P : κ → υ → Prop}

/-- Every entry has the property. -/
def Holds (P : κ → υ → Prop) (c : Cache κ υ) : Prop := ∀ e ∈ c.entries, P e.1 e.2

theorem holds_empty (limit : Option Nat) : (empty limit : Cache κ υ).Holds P := by
  intro e he
  cases he

theorem holds_clear (c : Cache κ υ) : c.clear.Holds P := by
  intro e he
  cases he

variable [DecidableEq κ]

theorem holds_erase {c : Cache κ υ} (h : c.Holds P) (k : κ) : (c.erase k).Holds P :=
  fun e he => h e (mem_others.1 he).1

theorem holds_of_get? {c : Cache κ υ} {k : κ} {v : υ} (h : c.Holds P) (hk : c.get? k = some v) :
    P k v := by
  obtain ⟨e, he, rfl⟩ := Option.map_eq_some_iff.1 hk
  have hkey : e.1 = k := by simpa using List.find?_some he
  exact hkey ▸ h e (List.mem_of_find?_eq_some he)

theorem holds_front {c : Cache κ υ} (h : c.Holds P) {k : κ} {v : υ} (hv : P k v) :
    ∀ e ∈ (k, v) :: others k c.entries, P e.1 e.2 := by
  intro e he
  rcases List.mem_cons.1 he with rfl | he
  · exact hv
  · exact h e (mem_others.1 he).1

theorem holds_request? {c d : Cache κ υ} {k : κ} {v : υ} (h : c.Holds P)
    (hr : c.request? k = some (v, d)) : P k v ∧ d.Holds P := by
  obtain ⟨w, hw, he⟩ := Option.map_eq_some_iff.1 hr
  obtain ⟨rfl, rfl⟩ := Prod.mk.inj he
  have hv := holds_of_get? h hw
  exact ⟨hv, holds_front h hv⟩

theorem holds_store {c : Cache κ υ} (h : c.Holds P) {k : κ} {v : υ} (hv : P k v) :
    (c.store k v).Holds P := by
  intro e he
  have hf := holds_front h hv
  cases hl : c.limit with
  | none =>
    rw [store, hl] at he
    exact hf e he
  | some n =>
    rw [store, hl] at he
    exact hf e (List.mem_of_mem_take he)

end Cache

/-! ## Patterns -/

namespace Matcher

/-- The patterns that are kept belong to their selectors. -/
def Faithful [Regex.Engine] (m : Matcher) : Prop :=
  ∀ c, m.cache = some c → c.Holds fun selector made => made.pattern = Selector.pattern selector

theorem faithful_uncached [Regex.Engine] {m : Matcher} (h : m.cache = none) : m.Faithful := by
  intro c hc
  rw [h] at hc
  cases hc

theorem faithful_clear [Regex.Engine] (m : Matcher) : m.clear.Faithful := by
  intro c hc
  obtain ⟨d, -, rfl⟩ := Option.map_eq_some_iff.1 hc
  exact Cache.holds_clear d

theorem faithful_request [Regex.Engine] {m : Matcher} (h : m.Faithful) (selector : Text) :
    (m.request selector).1.pattern = Selector.pattern selector ∧
      (m.request selector).2.Faithful := by
  unfold request
  split
  · next hc => exact ⟨rfl, faithful_uncached hc⟩
  · next c hc =>
    split
    · next p d hr =>
      obtain ⟨hp, hd⟩ := Cache.holds_request? (h c hc) hr
      refine ⟨hp, ?_⟩
      rintro _ ⟨rfl⟩
      exact hd
    · refine ⟨rfl, ?_⟩
      rintro _ ⟨rfl⟩
      exact Cache.holds_store (h c hc) rfl

theorem faithful_selects [Regex.Engine] {m : Matcher} (h : m.Faithful) (selector path : Text) :
    (m.selects selector path).1 = Selector.selects selector path ∧
      (m.selects selector path).2.Faithful := by
  obtain ⟨hp, hm⟩ := faithful_request h selector
  refine ⟨?_, hm⟩
  show (m.request selector).1.pattern.accepts _ = _
  rw [hp]
  rfl

theorem faithful_addMatching [Regex.Engine] {m : Matcher} (h : m.Faithful) (path : Text)
    (r : Resolution) (ss : List Section) :
    (m.addMatching path r ss).1
        = r.stackedOn (ss.filter fun s => Selector.selects s.selector path) ∧
      (m.addMatching path r ss).2.Faithful := by
  induction ss generalizing m r with
  | nil => exact ⟨(Resolution.stackedOn_nil r).symm, h⟩
  | cons s ss ih =>
    obtain ⟨hs, hm⟩ := faithful_selects h s.selector path
    cases hb : m.selects s.selector path with
    | mk b m' =>
      rw [hb] at hs hm
      rw [addMatching, hb]
      cases b with
      | true =>
        rw [List.filter_cons, if_pos hs.symm, Resolution.stackedOn_cons]
        exact ih hm _
      | false =>
        have hneg : ¬Selector.selects s.selector path = true := by simp [← hs]
        rw [List.filter_cons, if_neg hneg]
        exact ih hm r

/-- A config file gives a path its matching sections, the last one first. -/
theorem faithful_resolution [Regex.Engine] {m : Matcher} (h : m.Faithful) (file : Snapshot)
    (path : Text) :
    (m.resolution file path).1
        = ({} : Resolution).stackedOn
            (file.sections.reverse.filter fun s => Selector.selects s.selector path) ∧
      (m.resolution file path).2.Faithful :=
  faithful_addMatching h path {} file.sections.reverse

end Matcher

/-! ## Snapshots -/

namespace Reader

/-- A snapshot that is kept is the answer of the source at every path with its parts, among the
paths that are asked for. -/
def Faithful (src : Source) (asks : Text → Prop) (r : Reader) : Prop :=
  ∀ c, r.cache = some c →
    c.Holds fun parts file => ∀ path, asks path → Path.parts path = parts → src path = .ok file

variable {src : Source} {asks : Text → Prop}

theorem faithful_uncached {r : Reader} (h : r.cache = none) : r.Faithful src asks := by
  intro c hc
  rw [h] at hc
  cases hc

theorem faithful_invalidate {r : Reader} (h : r.Faithful src asks) (path : Text) :
    (r.invalidate path).Faithful src asks := by
  intro c hc
  obtain ⟨d, hd, rfl⟩ := Option.map_eq_some_iff.1 hc
  exact Cache.holds_erase (h d hd) _

theorem faithful_clear (r : Reader) : r.clear.Faithful src asks := by
  intro c hc
  obtain ⟨d, -, rfl⟩ := Option.map_eq_some_iff.1 hc
  exact Cache.holds_clear d

/-- A faithful reader answers like the source, when no two paths that are asked for share their
parts. -/
theorem faithful_read (hasks : ∀ p q, asks p → asks q → Path.parts p = Path.parts q → p = q)
    {r : Reader} (h : r.Faithful src asks) {path : Text} (hpath : asks path) :
    (r.read src path).1 = src path ∧ (r.read src path).2.Faithful src asks := by
  unfold read
  split
  · next hc => exact ⟨rfl, faithful_uncached hc⟩
  · next c hc =>
    split
    · next file d hr =>
      obtain ⟨hfile, hd⟩ := Cache.holds_request? (h c hc) hr
      refine ⟨(hfile path hpath rfl).symm, ?_⟩
      rintro _ ⟨rfl⟩
      exact hd
    · split
      · next file hsrc =>
        refine ⟨hsrc.symm, ?_⟩
        rintro _ ⟨rfl⟩
        refine Cache.holds_store (h c hc) fun q hq he => ?_
        rw [hasks q path hq hpath he, hsrc]
      · next e hsrc => exact ⟨hsrc.symm, h⟩

end Reader

/-! ## Calls of a matcher -/

namespace Matcher

inductive Call where
  | pattern (selector : Text)
  | selects (selector path : Text)
  | clear
deriving DecidableEq, Repr

/-- A matcher with an empty cache, which may have a limit, or without a cache. -/
def opened (patterns : Option (Option Nat)) : Matcher := { cache := patterns.map .empty }

/-- The matcher after one more call. -/
def call [Regex.Engine] (m : Matcher) : Call → Matcher
  | .pattern selector => (m.request selector).2
  | .selects selector path => (m.selects selector path).2
  | .clear => m.clear

def run [Regex.Engine] (m : Matcher) (xs : List Call) : Matcher := xs.foldl call m

theorem run_concat [Regex.Engine] (m : Matcher) (xs : List Call) (x : Call) :
    m.run (xs ++ [x]) = (m.run xs).call x := by
  rw [run, List.foldl_append]
  rfl

theorem faithful_opened [Regex.Engine] (patterns : Option (Option Nat)) :
    (opened patterns).Faithful := by
  intro c hc
  obtain ⟨limit, -, rfl⟩ := Option.map_eq_some_iff.1 hc
  exact Cache.holds_empty limit

theorem faithful_call [Regex.Engine] {m : Matcher} (h : m.Faithful) (x : Call) :
    (m.call x).Faithful := by
  cases x with
  | pattern selector => exact (faithful_request h selector).2
  | selects selector path => exact (faithful_selects h selector path).2
  | clear => exact faithful_clear m

theorem faithful_run [Regex.Engine] {m : Matcher} (h : m.Faithful) (xs : List Call) :
    (m.run xs).Faithful := by
  induction xs generalizing m with
  | nil => exact h
  | cons x xs ih => exact ih (faithful_call h x)

theorem selects_run [Regex.Engine] (patterns : Option (Option Nat)) (xs : List Call)
    (selector path : Text) :
    (((opened patterns).run xs).selects selector path).1 = Selector.selects selector path :=
  (faithful_selects (faithful_run (faithful_opened patterns) xs) selector path).1

end Matcher

end EditorConfig
