import VariableReport.Proofs.Formula.Normal
import VariableReport.Proofs.Formula.Place

/-!
# Powers in a formula

A power that stands between blanks, brackets or commas is written with its exponent raised wherever
it lies in no unit. In a unit its two stars are read as those of a product with an empty factor
between them, which is left out, so that the power is formatted as the product of its base and its
exponent (`format_power`).
-/

namespace VariableReport.Formula
open Text

variable {symbols : List Text} {settings : Settings} {b n p q s t u v : Text} {c d : Char}

/-! ### Two stars in a unit -/

theorem factors_append (u v : Text) : factors (u ++ '*' :: v) = factors u ++ factors v := by
  rw [factors, splitOn_append, List.map_append, List.filter_append]
  rfl

/-- The factor between two stars is empty and left out. -/
theorem simplifyProduct_stars (u v : Text) :
    simplifyProduct (u ++ '*' :: '*' :: v) = simplifyProduct (u ++ '*' :: v) := by
  have hstar : factors ('*' :: v) = factors v := factors_append [] v
  rw [simplifyProduct, simplifyProduct, factors_append, factors_append, hstar]

theorem simplifyUnit_stars (u v : Text) :
    simplifyUnit (u ++ '*' :: '*' :: v) = simplifyUnit (u ++ '*' :: v) := by
  unfold simplifyUnit
  cases hc : cut '/' u with
  | some sides =>
    rw [cut_append_of_eq_some hc, cut_append_of_eq_some hc]
    dsimp only
    rw [simplifyProduct_stars]
  | none =>
    have hu := not_mem_of_cut_eq_none hc
    have hstar (r : Text) : cut '/' ('*' :: r) = (cut '/' r).map fun p => ('*' :: p.1, p.2) :=
      cut_append_of_not_mem (s := ['*']) (by decide) r
    rw [cut_append_of_not_mem hu, cut_append_of_not_mem hu, hstar, hstar]
    cases cut '/' v with
    | none => exact simplifyProduct_stars u v
    | some sides =>
      dsimp only [Option.map_some]
      rw [simplifyProduct_stars]

/-! ### The steps behind the one for units -/

/-- A formula from a text whose units are simple. -/
def finish (symbols : List Text) (t : Text) : Text :=
  subscript.brace (escapeSymbols symbols (normalizeExponents t))

/-- A base with its exponent. -/
def raised (b n : Text) : Text := b ++ '^' :: '\x7b' :: (n ++ ['\x7d'])

/-- Escaping treats the two sides of a sign apart. -/
theorem splitsAt_escapeSymbols_sign (hs : ∀ s ∈ symbols, isIdentifier s = true)
    (hd : d ∈ " ,()[]\x7b\x7d^".toList) : SplitsAt (escapeSymbols symbols) d := by
  have hsign : ∀ d, d ∈ " ,()[]\x7b\x7d^".toList → d ≠ '\\' ∧ isWord d = false ∧
      isIdentifierStart d = false ∧ isIdentifierRest d = false :=
    List.all_iff_forall_prop.1 (by decide)
  obtain ⟨hback, hword, hstart, hrest⟩ := hsign d hd
  exact splitsAt_escapeSymbols (solid_of_isIdentifier hs).nil_not_mem
    (fun s hm => not_mem_of_isIdentifier hstart hrest (hs s hm)) hword hback

theorem splitsAt_finish (hs : ∀ s ∈ symbols, isIdentifier s = true)
    (hd : d ∈ " ,()[]\x7b\x7d".toList) : SplitsAt (finish symbols) d := by
  have hsub : ∀ d, d ∈ " ,()[]\x7b\x7d".toList →
      d ≠ '_' ∧ d ≠ '\\' ∧ isAsciiWord d = false := List.all_iff_forall_prop.1 (by decide)
  have hsuper : ∀ d, d ∈ " ,()[]\x7b\x7d".toList →
      d ≠ '*' ∧ d ≠ '^' ∧ none ≠ some d ∧ superscript.member d = false :=
    List.all_iff_forall_prop.1 (by decide)
  obtain ⟨hstar, hmark, hlead, hmember⟩ := hsuper d hd
  obtain ⟨hmark', hlead', hmember'⟩ := hsub d hd
  have hexponent : SplitsAt superscript.brace d := Script.brace_splitsAt ⟨hmark, hlead, hmember⟩
  have hescape : SplitsAt (escapeSymbols symbols) d :=
    splitsAt_escapeSymbols_sign hs (List.mem_append_left ['^'] hd)
  have hsubscript : SplitsAt subscript.brace d :=
    Script.brace_splitsAt (subscript_foreign_of hmark' hlead' hmember')
  exact hsubscript.comp (hescape.comp (hexponent.comp (caretPowers_splitsAt hstar)))

theorem caretPowers_append (hu : '*' ∉ u) (t : Text) :
    caretPowers (u ++ t) = u ++ caretPowers t := by
  induction u with
  | nil => rfl
  | cons c u ih =>
    rw [List.mem_cons, not_or] at hu
    rw [List.cons_append, caretPowers_cons fun h => hu.1 h.1.symm, ih hu.2, List.cons_append]

/-- No letter or digit is a star or a mark. -/
theorem marks_of_isAsciiWord (h : isAsciiWord c = true) : c ≠ '*' ∧ c ≠ '^' ∧ c ≠ '_' := by
  refine ⟨?_, ?_, ?_⟩ <;> rintro rfl <;> exact absurd h (by decide)

theorem normalizeExponents_stars (hb : ∀ c ∈ b, isAsciiWord c = true) (hne : n ≠ [])
    (hn : ∀ c ∈ n, isAsciiWord c = true) :
    normalizeExponents (b ++ '*' :: '*' :: n) = raised b n := by
  have hstar : '*' ∉ b ∧ '*' ∉ n :=
    ⟨fun h => (marks_of_isAsciiWord (hb _ h)).1 rfl, fun h => (marks_of_isAsciiWord (hn _ h)).1 rfl⟩
  have hmark : superscript.mark ∉ b := fun h => (marks_of_isAsciiWord (hb _ h)).2.1 rfl
  have hcopy : caretPowers n = n := by simpa [caretPowers] using caretPowers_append hstar.2 []
  have hmember : ∀ c ∈ n, superscript.member c = true := fun c hc => by
    simp [superscript, hn c hc]
  have hgroup : superscript.Bracing ('^' :: (n ++ [])) ('^' :: '\x7b' :: (n ++ '\x7d' :: [])) :=
    @Script.Bracing.group superscript [] n [] [] (.inl rfl) hne hmember (by simp) .nil
  rw [List.append_nil] at hgroup
  rw [normalizeExponents, caretPowers_append hstar.1, caretPowers_pair, hcopy]
  exact (hgroup.copy hmark).brace_eq

theorem isIdentifierStart_of_isAsciiDigit (h : isAsciiDigit c = true) :
    isIdentifierStart c = false := by
  simp only [isAsciiDigit, Bool.and_eq_true, decide_eq_true_eq, Char.le_def,
    UInt32.le_iff_toNat_le] at h
  have hrange : 48 ≤ c.val.toNat ∧ c.val.toNat ≤ 57 := h
  have hlow : c.toNat < 128 := Nat.lt_of_le_of_lt hrange.2 (by decide)
  rw [isIdentifierStart, if_pos hlow]
  by_contra hstart
  simp only [isAsciiLetter, Bool.not_eq_false, Bool.or_eq_true, Bool.and_eq_true,
    decide_eq_true_eq, Char.le_def, UInt32.le_iff_toNat_le] at hstart
  rcases hstart with (hlower | hupper) | rfl
  · have hfirst : 97 ≤ c.val.toNat := hlower.1
    omega
  · have hfirst : 65 ≤ c.val.toNat := hupper.1
    omega
  · exact absurd hrange.2 (by decide)

/-- Where none of the characters starts a name, nothing is escaped. -/
theorem marking_of_no_start (hne : [] ∉ symbols) {b : Option Char}
    (h : ∀ c ∈ t, ∀ s ∈ symbols, s.head? ≠ some c) : Marking symbols b t t := by
  induction t generalizing b with
  | nil => exact .nil
  | cons c t ih =>
    rw [List.forall_mem_cons] at h
    refine .char (fun _ => longestFit?_eq_none_iff.2 fun s hs => ?_) (ih h.2)
    cases s with
    | nil => exact absurd hs hne
    | cons x s =>
      have hx : x ≠ c := fun hx => h.1 _ hs (by rw [hx]; rfl)
      simp [fits, hx]

/-- Inside a word no name starts. -/
theorem Marking.eq_of_word {b : Option Char} (h : Marking symbols b t u)
    (hb : startsAfter b = false) (ht : ∀ c ∈ t, isAsciiWord c = true) : u = t := by
  induction h with
  | nil => rfl
  | char _ _ ih =>
    rw [List.forall_mem_cons] at ht
    rw [ih (startsAfter_of_word ht.1) ht.2]
  | symbol hb' => rw [hb] at hb'; cases hb'

/-- Of a word at most the whole is a name. -/
theorem Marking.suffix_of_word {b : Option Char} (h : Marking symbols b t u)
    (ht : ∀ c ∈ t, isAsciiWord c = true) : t <:+ u := by
  cases h with
  | nil => exact List.suffix_refl _
  | char _ h =>
    rw [List.forall_mem_cons] at ht
    rw [h.eq_of_word (startsAfter_of_word ht.1) ht.2]
  | @symbol _ s t u _ hne _ h =>
    have hlast : startsAfter s.getLast? = false := by
      rw [List.getLast?_eq_some_getLast hne]
      exact startsAfter_of_word (ht _ (List.mem_append_left t (List.getLast_mem hne)))
    rw [h.eq_of_word hlast fun c hc => ht c (List.mem_append_right s hc)]
    exact List.suffix_cons _ _

/-- No name starts in an exponent. -/
theorem escapeSymbols_digits (hs : ∀ s ∈ symbols, isIdentifier s = true)
    (hn : ∀ c ∈ n, isAsciiDigit c = true) : escapeSymbols symbols n = n := by
  have hnil : [] ∉ symbols := (solid_of_isIdentifier hs).nil_not_mem
  refine (marking_of_no_start hnil fun c hc s hm hhead => ?_).escapeFrom_eq hnil
  obtain ⟨t, rfl⟩ := List.head?_eq_some_iff.1 hhead
  have hstart := isIdentifierStart_of_isAsciiDigit (hn c hc)
  have hname := hs _ hm
  simp [isIdentifier, hstart] at hname

theorem escapeSymbols_raised (hs : ∀ s ∈ symbols, isIdentifier s = true)
    (hn : ∀ c ∈ n, isAsciiDigit c = true) (b : Text) :
    escapeSymbols symbols (raised b n) = raised (escapeSymbols symbols b) n := by
  have hempty : escapeSymbols symbols [] = [] :=
    escapeFrom_nil (solid_of_isIdentifier hs).nil_not_mem none
  have h1 := splitsAt_escapeSymbols_sign hs (d := '^') (by decide) b ('\x7b' :: (n ++ ['\x7d']))
  have h2 := splitsAt_escapeSymbols_sign hs (d := '\x7b') (by decide) [] (n ++ ['\x7d'])
  have h3 := splitsAt_escapeSymbols_sign hs (d := '\x7d') (by decide) n []
  rw [escapeSymbols_digits hs hn, hempty] at h3
  rw [List.nil_append, hempty, h3] at h2
  rw [raised, h1, h2, List.nil_append, raised]

/-- A power is raised, with a backslash in front of the base or without. -/
theorem suffix_finish_stars (hs : ∀ s ∈ symbols, isIdentifier s = true)
    (hb : ∀ c ∈ b, isAsciiWord c = true) (hne : n ≠ []) (hn : ∀ c ∈ n, isAsciiDigit c = true) :
    raised b n <:+ finish symbols (b ++ '*' :: '*' :: n) := by
  have hword : ∀ c ∈ n, isAsciiWord c = true := fun c hc => by simp [isAsciiWord, hn c hc]
  have hnil : [] ∉ symbols := (solid_of_isIdentifier hs).nil_not_mem
  have hmark : subscript.mark ∉ escapeSymbols symbols (raised b n) := by
    have hbase : '_' ∉ b := fun h => (marks_of_isAsciiWord (hb _ h)).2.2 rfl
    have hexponent : '_' ∉ n := fun h => (marks_of_isAsciiWord (hword _ h)).2.2 rfl
    rw [(inserted_escapeSymbols hnil (raised b n)).mem_iff (by decide)]
    change '_' ∉ raised b n
    simp [raised, hbase, hexponent]
  obtain ⟨u, hu⟩ := (marking_escapeFrom hnil none b).suffix_of_word hb
  have hbase : escapeSymbols symbols b = u ++ b := hu.symm
  rw [finish, normalizeExponents_stars hb hne hword, Script.brace_eq_self hmark,
    escapeSymbols_raised hs hn, hbase]
  exact ⟨u, (List.append_assoc u b _).symm⟩

/-- A base and its exponent hold no character at which units are cut. -/
theorem not_mem_stars (hb : ∀ c ∈ b, isAsciiWord c = true) (hn : ∀ c ∈ n, isAsciiWord c = true)
    (hd : d ≠ '*') (hd' : isAsciiWord d = false) : d ∉ b ++ '*' :: '*' :: n := by
  have hbase : d ∉ b := fun h => absurd (hb d h) (by simp [hd'])
  have hexponent : d ∉ n := fun h => absurd (hn d h) (by simp [hd'])
  simp [hbase, hexponent, hd]

/-- A power that lies in no unit is raised. -/
theorem infix_format_stars (hs : ∀ s ∈ symbols, isIdentifier s = true)
    (hb : ∀ c ∈ b, isAsciiWord c = true) (hne : n ≠ []) (hn : ∀ c ∈ n, isAsciiDigit c = true)
    (hp : ∀ c ∈ p.getLast?, c ∈ " ([\x7b".toList) (hq : ∀ c ∈ q.head?, c ∈ " ,)]\x7d".toList)
    (hplace : ¬(Opens p ∧ Closes q)) :
    raised b n <:+: format symbols (p ++ (b ++ '*' :: '*' :: n ++ q)) := by
  have hnil : [] ∉ symbols := (solid_of_isIdentifier hs).nil_not_mem
  have hword : ∀ c ∈ n, isAsciiWord c = true := fun c hc => by simp [isAsciiWord, hn c hc]
  have hcloses : ¬(Opens p ∧ Closes (b ++ '*' :: '*' :: n ++ q)) := by
    rintro ⟨hopens, hcloses⟩
    rcases closes_append.1 hcloses with ⟨y, z, h, -⟩ | ⟨-, h⟩
    · exact not_mem_stars (d := ']') hb hword (by decide) (by decide) (by simp [h])
    · exact hplace ⟨hopens, h⟩
  have hopen : '[' ∉ b ++ '*' :: '*' :: n := not_mem_stars hb hword (by decide) (by decide)
  have hbreaks : ∀ d, d ∈ " ([\x7b".toList ∨ d ∈ " ,)]\x7d".toList →
      d ∈ " ,()[]\x7b\x7d".toList := by
    rintro d (hd | hd)
    · exact (List.all_iff_forall_prop.1 (by decide) : ∀ d, d ∈ " ([\x7b".toList → _) d hd
    · exact (List.all_iff_forall_prop.1 (by decide) : ∀ d, d ∈ " ,)]\x7d".toList → _) d hd
  have hfinish (t : Text) : format symbols t = finish symbols (simplifyUnits t) :=
    format_eq_steps hnil t
  rw [hfinish, simplifyUnits_eq_mapUnits, mapUnits_append_of_outside _ hcloses,
    mapUnits_append _ hopen]
  refine (suffix_finish_stars hs hb hne hn).isInfix.trans (infix_of_splitsAt ?_ ?_ _)
  · intro d hd
    rw [getLast?_mapUnits] at hd
    exact splitsAt_finish hs (hbreaks d (.inl (hp d hd)))
  · intro d hd
    rw [head?_mapUnits] at hd
    exact splitsAt_finish hs (hbreaks d (.inr (hq d hd)))

/-- A power in a unit is read as a product. -/
theorem format_stars_of_inside (hs : [] ∉ symbols) (hb : ∀ c ∈ b, isAsciiWord c = true)
    (hn : ∀ c ∈ n, isAsciiWord c = true) (hp : Opens p) (hq : Closes q) :
    format symbols (p ++ (b ++ '*' :: '*' :: n ++ q)) =
      format symbols (p ++ (b ++ '*' :: n ++ q)) := by
  have hmem {d : Char} (hd : d ≠ '*') (hd' : isAsciiWord d = false) : d ∉ b ++ '*' :: n := fun h =>
    not_mem_stars hb hn hd hd' (by simpa using h)
  obtain ⟨a, x, y, z, hunit⟩ := exists_unit_around hp hq
  have hstars : simplifyUnit (x ++ (b ++ '*' :: '*' :: n ++ y)) =
      simplifyUnit (x ++ (b ++ '*' :: n ++ y)) := by
    simpa using simplifyUnit_stars (x ++ b) (n ++ y)
  have hunits : simplifyUnits (p ++ (b ++ '*' :: '*' :: n ++ q)) =
      simplifyUnits (p ++ (b ++ '*' :: n ++ q)) := by
    rw [simplifyUnits_eq_mapUnits, simplifyUnits_eq_mapUnits,
      hunit _ _ (not_mem_stars hb hn (by decide) (by decide))
        (not_mem_stars hb hn (by decide) (by decide)),
      hunit _ _ (hmem (by decide) (by decide)) (hmem (by decide) (by decide)), hstars]
  rw [format_eq_steps hs, format_eq_steps hs, hunits]

/-- A power is raised wherever it lies in no unit, and formatted as a product of its base and its
exponent wherever it lies in one. -/
theorem format_power (h : settings.misuse? = none) (hb : ∀ c ∈ b, isAsciiLetter c = true)
    (hne : n ≠ []) (hn : ∀ c ∈ n, isAsciiDigit c = true)
    (hp : ∀ c ∈ p.getLast?, c ∈ " ([\x7b".toList) (hq : ∀ c ∈ q.head?, c ∈ " ,)]\x7d".toList) :
    (¬(Opens p ∧ Closes q) → b ++ "^\x7b".toList ++ n ++ "\x7d".toList <:+:
      format settings.symbols (p ++ (b ++ "**".toList ++ n ++ q))) ∧
    (Opens p ∧ Closes q → format settings.symbols (p ++ (b ++ "**".toList ++ n ++ q)) =
      format settings.symbols (p ++ (b ++ "*".toList ++ n ++ q))) := by
  have hs := (Settings.Usable.of_misuse?_eq_none h).symbols
  have hnil : [] ∉ settings.symbols := (solid_of_isIdentifier hs).nil_not_mem
  have hbase : ∀ c ∈ b, isAsciiWord c = true := fun c hc => by simp [isAsciiWord, hb c hc]
  have hexponent : ∀ c ∈ n, isAsciiWord c = true := fun c hc => by simp [isAsciiWord, hn c hc]
  have hraised : b ++ "^\x7b".toList ++ n ++ "\x7d".toList = raised b n := by simp [raised]
  have hstars : b ++ "**".toList ++ n = b ++ '*' :: '*' :: n := by simp
  have hstar : b ++ "*".toList ++ n = b ++ '*' :: n := by simp
  rw [hraised, hstars, hstar]
  exact ⟨infix_format_stars hs hbase hne hn hp hq,
    fun hplace => format_stars_of_inside hnil hbase hexponent hplace.1 hplace.2⟩

/-- A closed unit on either side of a power does not reach it, and an open bracket without an end
is no unit. -/
theorem format_power_between_units : ({} : Settings).misuse? = none ∧
    ¬(Opens "[m*m] rho_0 [s\n(".toList ∧ Closes ") [kg]".toList) ∧
    "rho^\x7b2\x7d".toList <:+:
      format commonSymbols "[m*m] rho_0 [s\n(rho**2) [kg]".toList := by
  have h : ({} : Settings).misuse? = none := by decide +kernel
  have hplace : ¬(Opens "[m*m] rho_0 [s\n(".toList ∧ Closes ") [kg]".toList) := by decide
  have hbase : ∀ c ∈ "rho".toList, isAsciiLetter c = true := List.all_eq_true.1 (by decide)
  have hexponent : ∀ c ∈ "2".toList, isAsciiDigit c = true := List.all_eq_true.1 (by decide)
  have hlast : "[m*m] rho_0 [s\n(".toList.getLast? = some '(' := by decide
  have hhead : ") [kg]".toList.head? = some ')' := by decide
  have hpower := format_power h hbase (by decide) hexponent (p := "[m*m] rho_0 [s\n(".toList)
    (q := ") [kg]".toList) (by rw [hlast]; simp) (by rw [hhead]; simp)
  exact ⟨h, hplace, hpower.1 hplace⟩

/-- In brackets a power becomes a product. -/
theorem format_power_in_brackets :
    format commonSymbols "[x**2]".toList = "[x \\cdot 2]".toList ∧
    ¬"x^\x7b2\x7d".toList <:+: format commonSymbols "[x**2]".toList := by
  decide +kernel

end VariableReport.Formula
