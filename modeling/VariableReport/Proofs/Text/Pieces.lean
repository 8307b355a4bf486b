import VariableReport.Text

/-!
# Pieces of a text

Splitting at a character or at a longer separator, cutting at its first occurrence, and
joining pieces. The characters of a piece are those of the text without the separator, and the
characters of a joined text are those of its pieces and of what stands between them. Joined pieces
are found again when the second character of the separator is in none of them (`splitAround_join`).
-/

namespace VariableReport.Text

variable {s t p : Text}

theorem splitOn_of_not_mem {sep : Char} (h : sep ∉ t) : splitOn sep t = [t] := by
  induction t with
  | nil => rfl
  | cons c t ih =>
    simp only [List.mem_cons, not_or] at h
    simp [splitOn, Ne.symm h.1, ih h.2]

theorem mem_of_mem_splitOn {sep : Char} (h : p ∈ splitOn sep t) :
    ∀ c ∈ p, c ∈ t ∧ c ≠ sep := by
  induction t generalizing p with
  | nil => simp_all [splitOn]
  | cons d t ih =>
    rw [splitOn] at h
    split at h
    next hd =>
      rcases List.mem_cons.1 h with rfl | h
      · simp
      · exact fun c hc => ⟨by simp [(ih h c hc).1], (ih h c hc).2⟩
    next hd =>
      split at h
      next hs => exact absurd hs (splitOn_ne_nil sep t)
      next x xs hs =>
        rw [hs] at ih
        rcases List.mem_cons.1 h with rfl | h
        · intro c hc
          rcases List.mem_cons.1 hc with rfl | hc
          · exact ⟨by simp, hd⟩
          · exact ⟨by simp [(ih (by simp) c hc).1], (ih (by simp) c hc).2⟩
        · have := ih (List.mem_cons_of_mem _ h)
          exact fun c hc => ⟨by simp [(this c hc).1], (this c hc).2⟩

/-- No character but the separator is lost. -/
theorem exists_mem_splitOn {sep c : Char} (h : c ∈ t) (hc : c ≠ sep) :
    ∃ p ∈ splitOn sep t, c ∈ p := by
  induction t with
  | nil => contradiction
  | cons d t ih =>
    obtain ⟨x, xs, hs⟩ := List.exists_cons_of_ne_nil (splitOn_ne_nil sep t)
    rw [splitOn, hs]
    rw [hs] at ih
    split
    next hd =>
      obtain ⟨p, hp, hcp⟩ := ih ((List.mem_cons.1 h).resolve_left fun hcd => hc (hcd.trans hd))
      exact ⟨p, by simp [hp], hcp⟩
    next hd =>
      rcases List.mem_cons.1 h with rfl | h
      · exact ⟨c :: x, by simp, by simp⟩
      · obtain ⟨p, hp, hcp⟩ := ih h
        rcases List.mem_cons.1 hp with rfl | hp
        · exact ⟨d :: p, by simp, by simp [hcp]⟩
        · exact ⟨p, by simp [hp], hcp⟩

theorem splitOn_append (sep : Char) (s t : Text) :
    splitOn sep (s ++ sep :: t) = splitOn sep s ++ splitOn sep t := by
  induction s with
  | nil => simp [splitOn]
  | cons c s ih =>
    rw [List.cons_append, splitOn, splitOn, ih]
    split
    · rfl
    · obtain ⟨p, ps, hs⟩ := List.exists_cons_of_ne_nil (splitOn_ne_nil sep s)
      rw [hs]
      rfl

theorem join_cons_cons (sep p q : Text) (ps : List Text) :
    join sep (p :: q :: ps) = p ++ (sep ++ join sep (q :: ps)) := by
  simp [join, List.intercalate, List.intersperse]

theorem join_singleton (sep p : Text) : join sep [p] = p := by simp [join, List.intercalate]

theorem join_nil (sep : Text) : join sep [] = [] := rfl

theorem join_concat (sep u : Text) {ps : List Text} (h : ps ≠ []) :
    join sep (ps ++ [u]) = join sep ps ++ (sep ++ u) := by
  induction ps with
  | nil => contradiction
  | cons p ps ih =>
    cases ps with
    | nil => rw [List.singleton_append, join_cons_cons, join_singleton, join_singleton]
    | cons q ps =>
      rw [List.cons_append, List.cons_append, join_cons_cons, join_cons_cons, ← List.cons_append,
        ih (by simp), List.append_assoc, List.append_assoc]

theorem mem_of_mem_join {sep : Text} {ps : List Text} {c : Char} (h : c ∈ join sep ps) :
    c ∈ sep ∨ ∃ p ∈ ps, c ∈ p := by
  induction ps with
  | nil => simp [join_nil] at h
  | cons p ps ih =>
    cases ps with
    | nil => exact .inr ⟨p, by simp, by rwa [join_singleton] at h⟩
    | cons q ps =>
      rw [join_cons_cons, List.mem_append, List.mem_append] at h
      rcases h with h | h | h
      · exact .inr ⟨p, by simp, h⟩
      · exact .inl h
      · exact (ih h).imp_right fun ⟨x, hx, hc⟩ => ⟨x, by simp [hx], hc⟩

theorem mem_join {sep : Text} {ps : List Text} {c : Char} (hp : p ∈ ps) (hc : c ∈ p) :
    c ∈ join sep ps := by
  induction ps with
  | nil => contradiction
  | cons q ps ih =>
    cases ps with
    | nil => rwa [join_singleton, ← List.mem_singleton.1 hp]
    | cons r ps =>
      rw [join_cons_cons, List.mem_append, List.mem_append]
      rcases List.mem_cons.1 hp with rfl | hp
      · exact .inl hc
      · exact .inr (.inr (ih hp))

theorem count_join (sep : Text) (c : Char) {ps : List Text} (h : ps ≠ []) :
    (join sep ps).count c + sep.count c = ps.flatten.count c + ps.length * sep.count c := by
  induction ps with
  | nil => contradiction
  | cons p ps ih =>
    cases ps with
    | nil => simp [join_singleton]
    | cons q ps =>
      have hrest := ih (by simp)
      rw [join_cons_cons, List.count_append, List.count_append, List.flatten_cons,
        List.count_append, List.length_cons, Nat.succ_mul]
      omega

theorem cut_of_not_mem {sep : Char} (h : sep ∉ t) : cut sep t = none := by
  induction t with
  | nil => rfl
  | cons c t ih =>
    simp only [List.mem_cons, not_or] at h
    simp [cut, Ne.symm h.1, ih h.2]

theorem cut_append {sep : Char} (h : sep ∉ s) (t : Text) : cut sep (s ++ sep :: t) = some (s, t) := by
  induction s with
  | nil => simp [cut]
  | cons c s ih =>
    simp only [List.mem_cons, not_or] at h
    simp [cut, Ne.symm h.1, ih h.2]

theorem not_mem_of_cut_eq_none {sep : Char} (h : cut sep t = none) : sep ∉ t := by
  induction t with
  | nil => simp
  | cons c t ih =>
    rw [cut] at h
    split at h
    next => contradiction
    next hc => simpa [Ne.symm hc] using ih (by simpa using h)

/-- What stands behind a separator does not move it. -/
theorem cut_append_of_eq_some {sep : Char} {a b : Text} (h : cut sep s = some (a, b)) (t : Text) :
    cut sep (s ++ t) = some (a, b ++ t) := by
  obtain ⟨rfl, ha⟩ := cut_eq_some h
  rw [List.append_assoc, List.cons_append, cut_append ha]

theorem cut_append_of_not_mem {sep : Char} (h : sep ∉ s) (t : Text) :
    cut sep (s ++ t) = (cut sep t).map fun (a, b) => (s ++ a, b) := by
  cases hc : cut sep t with
  | none =>
    have ht := not_mem_of_cut_eq_none hc
    exact cut_of_not_mem (by simp [h, ht])
  | some sides =>
    obtain ⟨rfl, ha⟩ := cut_eq_some hc
    rw [← List.append_assoc, cut_append (by simp [h, ha])]
    rfl

/-! ### Longer separators -/

/-- One pass of `splitAround`: `skip` characters of a separator are still to be dropped. -/
def splitAroundFrom (sep : Text) : Nat → Text → List Text
  | _, [] => [[]]
  | skip + 1, _ :: t => splitAroundFrom sep skip t
  | 0, c :: t =>
    if sep.isPrefixOf (c :: t) then [] :: splitAroundFrom sep (sep.length - 1) t
    else (splitAroundFrom sep 0 t).modifyHead (c :: ·)

/-- The pieces between the occurrences of a separator that is not empty, found from the left
without overlap. -/
def splitAround (sep t : Text) : List Text := splitAroundFrom sep 0 t

theorem splitAroundFrom_length (sep u t : Text) :
    splitAroundFrom sep u.length (u ++ t) = splitAround sep t := by
  induction u with
  | nil => rfl
  | cons c u ih => exact ih

theorem splitAround_of_not_mem {x d : Char} {r : Text} (h : d ∉ p) :
    splitAround (x :: d :: r) p = [p] := by
  induction p with
  | nil => rfl
  | cons c p ih =>
    have hno : ¬(x :: d :: r).isPrefixOf (c :: p) := fun hpre =>
      h ((List.isPrefixOf_iff_prefix.1 hpre).subset (by simp))
    rw [splitAround, splitAroundFrom, if_neg hno, ← splitAround,
      ih fun hd => h (List.mem_cons_of_mem c hd)]
    rfl

/-- A piece without the second character of the separator ends where the separator starts: an
occurrence that starts earlier has that character in the piece or at the start of the separator. -/
theorem splitAround_append {x d : Char} {r : Text} (hx : x ≠ d) (h : d ∉ p) (t : Text) :
    splitAround (x :: d :: r) (p ++ (x :: d :: r ++ t)) = p :: splitAround (x :: d :: r) t := by
  induction p with
  | nil =>
    have hpre : (x :: d :: r).isPrefixOf (x :: (d :: r ++ t)) :=
      List.isPrefixOf_iff_prefix.2 (List.prefix_append (x :: d :: r) t)
    rw [List.nil_append, List.cons_append, splitAround, splitAroundFrom, if_pos hpre]
    exact congrArg _ (splitAroundFrom_length (x :: d :: r) (d :: r) t)
  | cons c p ih =>
    rw [List.mem_cons, not_or] at h
    have hno : ¬(x :: d :: r).isPrefixOf (c :: (p ++ (x :: d :: r ++ t))) := by
      intro hpre
      have hrest := (List.cons_prefix_cons.1 (List.isPrefixOf_iff_prefix.1 hpre)).2
      cases p with
      | nil => exact hx (List.cons_prefix_cons.1 hrest).1.symm
      | cons e p => exact h.2 ((List.cons_prefix_cons.1 hrest).1 ▸ List.mem_cons_self)
    rw [List.cons_append, splitAround, splitAroundFrom, if_neg hno, ← splitAround, ih h.2]
    rfl

theorem splitAround_join {x d : Char} {r : Text} {ps : List Text} (hx : x ≠ d) (hne : ps ≠ [])
    (h : ∀ p ∈ ps, d ∉ p) : splitAround (x :: d :: r) (join (x :: d :: r) ps) = ps := by
  induction ps with
  | nil => contradiction
  | cons p ps ih =>
    rw [List.forall_mem_cons] at h
    cases ps with
    | nil => rw [join_singleton, splitAround_of_not_mem h.1]
    | cons q ps => rw [join_cons_cons, splitAround_append hx h.1, ih (by simp) h.2]

example : splitAround " & ".toList "-1 & 2 & 30".toList =
    ["-1".toList, "2".toList, "30".toList] := by decide

end VariableReport.Text
