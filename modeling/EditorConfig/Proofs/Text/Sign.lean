import EditorConfig.Text.Basic

/-!
# Signs and characters

* `Text.endsOpen`   whether a text ends with a backslash that quotes nothing.

Main statements: a text in two parts is read part by part, unless the first one ends with such a
backslash (`signs_append`, `exists_append_of_signs`), and plain signs that stand next to each other
are characters that do (`prefix_of_prefix_signs`, `infix_of_infix_signs`).
-/

namespace EditorConfig.Text

/-! ## Texts in two parts -/

/-- The text ends with a backslash that quotes nothing. -/
def endsOpen : Text → Bool
  | [] => false
  | c :: t =>
    if c = '\\' then
      match t with
      | [] => true
      | _ :: u => endsOpen u
    else endsOpen t

theorem endsOpen_plain {c : Char} (h : c ≠ '\\') (t : Text) : endsOpen (c :: t) = endsOpen t := by
  rw [endsOpen.eq_def]
  simp [h]

theorem signs_append {t : Text} (h : endsOpen t = false) (u : Text) :
    signs (t ++ u) = signs t ++ signs u := by
  fun_induction signs t with
  | case1 => rfl
  | case2 => simp [endsOpen] at h
  | case3 c t ih =>
    have ht : endsOpen t = false := by simpa [endsOpen] using h
    rw [List.cons_append, List.cons_append, signs_quoted, ih ht, List.cons_append]
  | case4 c t hc ih =>
    rw [endsOpen_plain hc] at h
    rw [List.cons_append, signs_plain hc, ih h, List.cons_append]

theorem endsOpen_append {t : Text} (h : endsOpen t = false) (u : Text) :
    endsOpen (t ++ u) = endsOpen u := by
  fun_induction endsOpen t with
  | case1 => rfl
  | case2 => cases h
  | case3 c t ih =>
    show endsOpen ('\\' :: c :: (t ++ u)) = _
    rw [endsOpen, if_pos rfl]
    exact ih h
  | case4 c t hc ih =>
    rw [List.cons_append, endsOpen_plain hc]
    exact ih h

/-- Signs with a plain one among them are those of a text in two parts, with its character between
them. -/
theorem exists_append_of_signs {t : Text} {c : Char} {ss us : List Sign}
    (h : signs t = ss ++ .plain c :: us) :
    ∃ a b, t = a ++ c :: b ∧ endsOpen a = false ∧ signs a = ss ∧ signs b = us := by
  fun_induction signs t generalizing ss with
  | case1 => simp at h
  | case2 =>
    cases ss with
    | nil => cases h
    | cons s ss => simp at h
  | case3 d t ih =>
    cases ss with
    | nil => cases h
    | cons s ss =>
      obtain ⟨rfl, ht⟩ := List.cons.inj h
      obtain ⟨a, b, rfl, hopen, rfl, rfl⟩ := ih ht
      exact ⟨'\\' :: d :: a, b, rfl, by simpa [endsOpen] using hopen, signs_quoted d a, rfl⟩
  | case4 d t hd ih =>
    cases ss with
    | nil =>
      cases h
      exact ⟨[], t, rfl, rfl, rfl, rfl⟩
    | cons s ss =>
      obtain ⟨rfl, ht⟩ := List.cons.inj h
      obtain ⟨a, b, rfl, hopen, rfl, rfl⟩ := ih ht
      exact ⟨d :: a, b, rfl, by rwa [endsOpen_plain hd], signs_plain hd a, rfl⟩

/-! ## From signs back to characters -/

theorem head?_of_head?_signs {t : Text} {c : Char} (h : t.signs.head? = some (.plain c)) :
    t.head? = some c := by
  cases t with
  | nil => cases h
  | cons d t =>
    by_cases hd : d = '\\'
    · subst hd
      cases t with
      | nil => cases h
      | cons e u =>
        rw [signs_quoted] at h
        cases h
    · rw [signs_plain hd] at h
      cases h
      rfl

theorem prefix_of_prefix_signs {cs t : Text} (h : cs.map .plain <+: signs t) : cs <+: t := by
  induction cs generalizing t with
  | nil => exact List.nil_prefix
  | cons c cs ih =>
    cases t with
    | nil => simp at h
    | cons d t =>
      by_cases hd : d = '\\'
      · subst hd
        cases t with
        | nil => simp [signs] at h
        | cons e u => simp at h
      · rw [signs_plain hd, List.map_cons, List.cons_prefix_cons] at h
        obtain ⟨hc, hcs⟩ := h
        cases hc
        exact (List.prefix_cons_inj c).2 (ih hcs)

theorem signs_ne_nil {t : Text} (h : t ≠ []) : signs t ≠ [] := by
  fun_cases signs t with
  | case1 => exact absurd rfl h
  | case2 => exact List.cons_ne_nil _ _
  | case3 => exact List.cons_ne_nil _ _
  | case4 => exact List.cons_ne_nil _ _

theorem getLast?_of_getLast?_signs {t : Text} {c : Char}
    (h : (signs t).getLast? = some (.plain c)) : t.getLast? = some c := by
  fun_induction signs t with
  | case1 => cases h
  | case2 => cases h
  | case3 d t ih =>
    by_cases ht : t = []
    · subst ht
      cases h
    · rw [List.getLast?_cons_of_ne_nil (signs_ne_nil ht)] at h
      rw [List.getLast?_cons_cons, List.getLast?_cons_of_ne_nil ht, ih h]
  | case4 d t hd ih =>
    by_cases ht : t = []
    · subst ht
      cases h
      rfl
    · rw [List.getLast?_cons_of_ne_nil (signs_ne_nil ht)] at h
      rw [List.getLast?_cons_of_ne_nil ht, ih h]

theorem infix_of_infix_signs {cs t : Text} (h : cs.map .plain <:+: signs t) : cs <:+: t := by
  by_cases hne : cs = []
  · rw [hne]
    exact List.nil_infix
  · obtain ⟨c, cs, rfl⟩ := List.exists_cons_of_ne_nil hne
    fun_induction signs t with
    | case1 => simp at h
    | case2 => simp [List.infix_cons_iff] at h
    | case3 d t ih =>
      rcases List.infix_cons_iff.1 h with hp | hi
      · cases (List.cons_prefix_cons.1 hp).1
      · exact (ih hi).trans (List.suffix_append ['\\', d] t).isInfix
    | case4 d t hd ih =>
      rcases List.infix_cons_iff.1 h with hp | hi
      · rw [← signs_plain hd] at hp
        exact (prefix_of_prefix_signs hp).isInfix
      · exact (ih hi).trans (List.suffix_cons d t).isInfix

theorem char_mem_of_mem_signs {s : Sign} {t : Text} (h : s ∈ signs t) : s.char ∈ t := by
  fun_induction signs t with
  | case1 => cases h
  | case2 =>
    obtain rfl := List.mem_singleton.1 h
    exact List.mem_cons_self
  | case3 c t ih =>
    rcases List.mem_cons.1 h with rfl | h
    · exact List.mem_cons_of_mem _ List.mem_cons_self
    · exact List.mem_cons_of_mem _ (List.mem_cons_of_mem _ (ih h))
  | case4 c t hc ih =>
    rcases List.mem_cons.1 h with rfl | h
    · exact List.mem_cons_self
    · exact List.mem_cons_of_mem _ (ih h)

end EditorConfig.Text
