/-!
# Caches

A cache keeps the values of the keys that were asked for last.

* `Cache`            entries with the last one asked for in front, and perhaps a limit;
* `Cache.request?`   the value of a key, which becomes the last one asked for;
* `Cache.store`      a new value in front; past the limit, entries go from the back;
* `Cache.erase`      the cache without a key.

Main statements: what each operation does to the keys (`keys_store` and its like), and that no key
is kept twice (`nodup_store` and its like).
-/

namespace EditorConfig

structure Cache (κ υ : Type) where
  /-- The most entries that are kept. -/
  limit : Option Nat
  entries : List (κ × υ)
deriving DecidableEq, Repr

namespace Cache

variable {κ υ : Type} [DecidableEq κ]

def empty (limit : Option Nat) : Cache κ υ := ⟨limit, []⟩

def size (c : Cache κ υ) : Nat := c.entries.length

def keys (c : Cache κ υ) : List κ := c.entries.map Prod.fst

/-- The entries of the other keys. -/
def others (k : κ) (es : List (κ × υ)) : List (κ × υ) := es.filter fun e => e.1 ≠ k

def get? (c : Cache κ υ) (k : κ) : Option υ := (c.entries.find? fun e => e.1 = k).map Prod.snd

/-- The value of a key, and the cache with that entry in front. -/
def request? (c : Cache κ υ) (k : κ) : Option (υ × Cache κ υ) :=
  (c.get? k).map fun v => (v, { c with entries := (k, v) :: others k c.entries })

/-- As many from the front as the limit lets stay. -/
def within {α : Type} (limit : Option Nat) (l : List α) : List α :=
  match limit with
  | none => l
  | some n => l.take n

def store (c : Cache κ υ) (k : κ) (v : υ) : Cache κ υ :=
  { c with entries := within c.limit ((k, v) :: others k c.entries) }

def erase (c : Cache κ υ) (k : κ) : Cache κ υ := { c with entries := others k c.entries }

def clear (c : Cache κ υ) : Cache κ υ := { c with entries := [] }

/-! ## Entries of other keys -/

omit [DecidableEq κ] in
theorem keys_mk (limit : Option Nat) (es : List (κ × υ)) :
    (⟨limit, es⟩ : Cache κ υ).keys = es.map Prod.fst := rfl

theorem mem_others {k : κ} {es : List (κ × υ)} {e : κ × υ} :
    e ∈ others k es ↔ e ∈ es ∧ e.1 ≠ k := by
  simp [others]

theorem map_fst_others (k : κ) (es : List (κ × υ)) :
    (others k es).map Prod.fst = (es.map Prod.fst).filter fun j => j ≠ k := by
  rw [others, List.filter_map]
  rfl

theorem others_eq_self {c : Cache κ υ} {k : κ} (h : k ∉ c.keys) :
    others k c.entries = c.entries := by
  rw [others, List.filter_eq_self]
  intro e he
  have hne : e.1 ≠ k := by
    rintro rfl
    exact h (List.mem_map_of_mem he)
  simpa using hne

theorem not_mem_filter_ne (k : κ) (ks : List κ) : k ∉ ks.filter fun j => j ≠ k := by simp

/-! ## Keys -/

theorem keys_erase (c : Cache κ υ) (k : κ) : (c.erase k).keys = c.keys.filter fun j => j ≠ k :=
  map_fst_others k c.entries

/-- A key that is asked for comes to the front. -/
theorem keys_request? {c d : Cache κ υ} {k : κ} {v : υ} (h : c.request? k = some (v, d)) :
    d.keys = k :: c.keys.filter fun j => j ≠ k := by
  obtain ⟨w, -, hw⟩ := Option.map_eq_some_iff.1 h
  obtain rfl := (Prod.mk.inj hw).2
  rw [keys_mk, List.map_cons, map_fst_others]
  rfl

/-- A new key comes to the front, and the limit cuts at the back. -/
theorem keys_store (c : Cache κ υ) (k : κ) (v : υ) :
    (c.store k v).keys = within c.limit (k :: c.keys.filter fun j => j ≠ k) := by
  have h : ((k, v) :: others k c.entries).map Prod.fst = k :: c.keys.filter fun j => j ≠ k := by
    rw [List.map_cons, map_fst_others]
    rfl
  rw [store, keys_mk, ← h]
  cases c.limit with
  | none => rfl
  | some n => exact List.map_take

theorem get?_isSome_iff {c : Cache κ υ} {k : κ} : (c.get? k).isSome ↔ k ∈ c.keys := by
  simp [get?, keys]

/-! ## Requests -/

theorem request?_eq_none_iff {c : Cache κ υ} {k : κ} : c.request? k = none ↔ k ∉ c.keys := by
  rw [request?, Option.map_eq_none_iff, ← get?_isSome_iff, Option.not_isSome_iff_eq_none]

/-- What a request finds is an entry, which comes to the front. -/
theorem request?_eq_some {c d : Cache κ υ} {k : κ} {v : υ} (h : c.request? k = some (v, d)) :
    (k, v) ∈ c.entries ∧ d = { c with entries := (k, v) :: others k c.entries } := by
  obtain ⟨w, hw, he⟩ := Option.map_eq_some_iff.1 h
  obtain ⟨rfl, rfl⟩ := Prod.mk.inj he
  obtain ⟨e, hfind, rfl⟩ := Option.map_eq_some_iff.1 hw
  have hkey : e.1 = k := by simpa using List.find?_some hfind
  refine ⟨?_, rfl⟩
  rw [← hkey]
  exact List.mem_of_find?_eq_some hfind

/-! ## Every key once -/

theorem nodup_front {ks : List κ} (k : κ) (h : ks.Nodup) :
    (k :: ks.filter fun j => j ≠ k).Nodup :=
  List.nodup_cons.2 ⟨not_mem_filter_ne k ks, h.filter _⟩

theorem nodup_erase {c : Cache κ υ} (h : c.keys.Nodup) (k : κ) : (c.erase k).keys.Nodup :=
  keys_erase c k ▸ h.filter _

theorem nodup_request? {c d : Cache κ υ} {k : κ} {v : υ} (h : c.keys.Nodup)
    (hr : c.request? k = some (v, d)) : d.keys.Nodup :=
  keys_request? hr ▸ nodup_front k h

theorem nodup_store {c : Cache κ υ} (h : c.keys.Nodup) (k : κ) (v : υ) :
    (c.store k v).keys.Nodup := by
  rw [keys_store]
  cases c.limit with
  | none => exact nodup_front k h
  | some n => exact (nodup_front k h).sublist (List.take_sublist _ _)

/-! ## Limits -/

theorem size_store_le {c : Cache κ υ} {n : Nat} (h : c.limit = some n) (k : κ) (v : υ) :
    (c.store k v).size ≤ n := by
  rw [store, h]
  exact List.length_take_le _ _

/-- With room for one entry, a new key stands in front of the entries that stay. -/
theorem entries_store {c : Cache κ υ} {k : κ} (hlimit : c.limit ≠ some 0) (hk : k ∉ c.keys)
    (v : υ) : ∃ kept, kept <+: c.entries ∧ (c.store k v).entries = (k, v) :: kept := by
  rw [store, others_eq_self hk]
  cases hl : c.limit with
  | none => exact ⟨c.entries, List.prefix_rfl, rfl⟩
  | some n =>
    cases n with
    | zero => exact absurd hl hlimit
    | succ n => exact ⟨c.entries.take n, List.take_prefix n _, rfl⟩

theorem size_request?_le {c d : Cache κ υ} {k : κ} {v : υ} (h : c.request? k = some (v, d)) :
    d.size ≤ c.size := by
  obtain ⟨hmem, rfl⟩ := request?_eq_some h
  show (others k c.entries).length < c.entries.length
  exact List.length_filter_lt_length_iff_exists.2 ⟨(k, v), hmem, by simp⟩

theorem size_erase_le (c : Cache κ υ) (k : κ) : (c.erase k).size ≤ c.size :=
  List.length_filter_le _ _

end Cache

end EditorConfig
