import VariableReport.Proofs.Formula.Idempotence

/-!
# Characters that formatting keeps

Formatting puts in what marks products, powers, scripts and commands, and it leaves out stars and
the white space around the factors of a unit. Any other character stands in a formula exactly when
it stands in the text that is formatted, however often (`mem_format_iff`). Bars are such characters,
and so are line feeds, which stand in no unit.
-/

namespace VariableReport.Formula
open Text

variable {symbols : List Text} {t k : Text} {c : Char}

theorem mem_power_of_mem (h : c ∈ t) (n : Nat) : c ∈ power t n := by
  have hbase : c ∈ subscript.brace t := (Script.brace_inserted subscript t).sublist.subset h
  unfold power
  dsimp only
  split
  · exact List.mem_append_left _ hbase
  · exact hbase

/-- A product keeps what is no star and no white space. -/
theorem mem_simplifyProduct_iff (hb : isBlank c = false) (hs : c ≠ '*') (ha : isAdded c = false) :
    c ∈ simplifyProduct t ↔ c ∈ t := by
  constructor
  · intro h
    rcases mem_simplifyProduct h with h | h
    · exact h.1
    · rw [ha] at h
      cases h
  · intro h
    obtain ⟨p, hp, hc⟩ := exists_mem_splitOn h hs
    have hfactor : trim p ∈ factors t := by
      rw [factors, List.mem_filter]
      refine ⟨List.mem_map_of_mem hp, ?_⟩
      simpa using List.ne_nil_of_mem (mem_trim hc hb)
    have hterm : power (trim p) ((factors t).count (trim p)) ∈
        (factors t).eraseDups.map fun f => power f ((factors t).count f) :=
      List.mem_map_of_mem (List.mem_eraseDups.2 hfactor)
    exact mem_join hterm (mem_power_of_mem (mem_trim hc hb) _)

theorem mem_simplifyUnit_iff (hb : isBlank c = false) (hs : c ≠ '*') (hslash : c ≠ '/')
    (ha : isAdded c = false) : c ∈ simplifyUnit k ↔ c ∈ k := by
  constructor
  · intro h
    refine (mem_simplifyUnit h).resolve_right ?_
    simp [ha]
  · intro h
    unfold simplifyUnit
    cases hc : cut '/' k with
    | none => exact (mem_simplifyProduct_iff hb hs ha).2 h
    | some sides =>
      obtain ⟨top, bottom⟩ := sides
      obtain ⟨rfl, -⟩ := cut_eq_some hc
      dsimp only
      rw [List.mem_append, List.mem_cons, or_iff_right hslash] at h
      rw [List.mem_append, List.mem_append]
      rcases h with h | h
      · have htop : c ∈ simplifyProduct top := (mem_simplifyProduct_iff hb hs ha).2 h
        rw [if_neg (by simpa using List.ne_nil_of_mem htop)]
        exact .inl (.inl htop)
      · exact .inr ((mem_simplifyProduct_iff hb hs ha).2 h)

theorem mem_simplifyUnits_iff (h : ∀ k, '\n' ∉ k → (c ∈ simplifyUnit k ↔ c ∈ k)) :
    c ∈ simplifyUnits t ↔ c ∈ t := by
  rw [simplifyUnits_eq_mapUnits]
  have hb := bracketed t
  induction hb with
  | nil => rfl
  | char hc _ ih =>
    rw [mapUnits_char _ hc, List.mem_cons, List.mem_cons]
    exact or_congr_right ih
  | unit h1 h2 _ ih =>
    rw [mapUnits_unit _ h1 h2]
    simp only [List.mem_cons, List.mem_append, h _ h2, ih]

theorem mem_caretPowers_iff (hs : c ≠ '*') (hc : c ≠ '^') : c ∈ caretPowers t ↔ c ∈ t := by
  induction t using caretPowers_induction with
  | nil => rfl
  | pair t ih =>
    rw [caretPowers_pair]
    simp [hs, hc, ih]
  | char d t hp ih => rw [caretPowers_cons hp, List.mem_cons, List.mem_cons, ih]

/-- What the steps behind the one for units neither put in nor leave out, a formula keeps if units
do. -/
theorem mem_format_iff (hne : [] ∉ symbols) (hc : c ∉ "*^\\\x7b\x7d".toList)
    (hunit : ∀ k, '\n' ∉ k → (c ∈ simplifyUnit k ↔ c ∈ k)) : c ∈ format symbols t ↔ c ∈ t := by
  have hmarks : c ≠ '*' ∧ c ≠ '^' ∧ c ≠ '\\' ∧ c ≠ '\x7b' ∧ c ≠ '\x7d' := by simpa using hc
  obtain ⟨hstar, hcaret, hback, hopen, hclose⟩ := hmarks
  rw [(format_inserted hne t).mem_iff (by simp [hback, hopen, hclose]), normalizeExponents,
    (superscript.brace_inserted _).mem_iff (by simp [hopen, hclose]),
    mem_caretPowers_iff hstar hcaret, mem_simplifyUnits_iff hunit]

theorem bar_mem_format_iff (hne : [] ∉ symbols) : '|' ∈ format symbols t ↔ '|' ∈ t :=
  mem_format_iff hne (by decide) fun _ _ =>
    mem_simplifyUnit_iff (by decide) (by decide) (by decide) (by decide)

theorem lineFeed_mem_format_iff (hne : [] ∉ symbols) : '\n' ∈ format symbols t ↔ '\n' ∈ t := by
  refine mem_format_iff hne (by decide) fun k hk => iff_of_false (fun h => ?_) hk
  rcases mem_simplifyUnit h with h | h
  · exact hk h
  · exact absurd h (by decide)

end VariableReport.Formula
