import VariableReport.Json.Printer
import VariableReport.Proofs.Json.Quoted
import VariableReport.Proofs.Json.Reader
import Mathlib.Data.List.Nodup

/-!
# Written JSON is read back

Texts, truth values, nulls, arrays and objects of these are written so that reading gives them
back, in every style (`read_render`). An escape is read as the code units that it stands for
(`readUnits_escapeChar`), and two halves of a character are joined again (`joinUnits_codeUnits`);
between items and members there is white space and a comma, and the members of an object have
distinct names, so none takes the place of another (`merge_eq_self`). The number that bounds the
reader's recursion is at least twice the length of what is read. A style without indentation
writes a value on one line, since controls are escaped (`printed_renderAt`).
-/

namespace VariableReport.Json
open Quoted (doubleQuote)

variable {s : Style} {c : Char} {b t u rest : Text} {opening n d depth level : Nat} {j : Json}
  {js : List Json} {ms : List (Text × Json)} {ascii : Bool}

/-- Values without numbers, with at most `d` brackets around each other. -/
inductive Textual : Nat → Json → Prop
  | null (d : Nat) : Textual d .null
  | bool (d : Nat) (b : Bool) : Textual d (.bool b)
  | str (d : Nat) (t : Text) : Textual d (.str t)
  | array {d : Nat} {js : List Json} : (∀ j ∈ js, Textual d j) → Textual (d + 1) (.array js)
  | object {d : Nat} {ms : List (Text × Json)} : (ms.map Prod.fst).Nodup →
      (∀ m ∈ ms, Textual d m.2) → Textual (d + 1) (.object ms)

/-! ### Texts -/

/-- The code units of a written character: two halves of one that is numbered beyond the first
plane. -/
def codeUnits (ascii : Bool) (c : Char) : List Nat :=
  if ascii = true ∧ 0x10000 ≤ c.toNat then
    [0xD800 + (c.toNat - 0x10000) / 1024, 0xDC00 + (c.toNat - 0x10000) % 1024]
  else [c.toNat]

theorem codeUnits_of_lt (ascii : Bool) (hc : c.toNat < 0x10000) : codeUnits ascii c = [c.toNat] :=
  if_neg fun h => by omega

theorem readUnits_fourDigits (hn : n < 0x10000) (ht : t ≠ []) :
    readUnits opening ('\\' :: 'u' :: (Quoted.hex 4 n ++ t)) = (readUnits opening t).cons n := by
  have hwidth : n < Decimal.pow 16 4 := by
    have : Decimal.pow 16 4 = 0x10000 := by decide
    omega
  obtain ⟨x, y, z, w, he, hfour⟩ := fourDigits?_hex hwidth
  rw [he]
  change readUnits opening ('\\' :: 'u' :: x :: y :: z :: w :: t) = _
  rw [readUnits, hfour]
  simp [ht]

theorem readUnits_halves {high low : Nat} (hhigh : high < 0x10000) (hlow : low < 0x10000)
    (ht : t ≠ []) : readUnits opening (['\\', 'u'] ++ Quoted.hex 4 high ++
      (['\\', 'u'] ++ Quoted.hex 4 low) ++ t) =
        [high, low].foldr Reading.cons (readUnits opening t) := by
  simp only [List.cons_append, List.append_assoc, List.nil_append]
  rw [readUnits_fourDigits hhigh (by simp), readUnits_fourDigits hlow ht]
  rfl

theorem readUnits_numbered (hc : c.toNat < 0x10000 ∨ ascii = true) (ht : t ≠ []) :
    readUnits opening (numbered c.toNat ++ t) =
      (codeUnits ascii c).foldr Reading.cons (readUnits opening t) := by
  by_cases hplane : c.toNat < 0x10000
  · rw [codeUnits_of_lt ascii hplane, numbered, if_pos hplane]
    exact readUnits_fourDigits hplane ht
  · have hlt := Quoted.toNat_lt c
    have hascii := hc.resolve_left hplane
    rw [codeUnits, if_pos ⟨hascii, Nat.le_of_not_lt hplane⟩, numbered, if_neg hplane]
    exact readUnits_halves (by omega) (by omega) ht

theorem readUnits_escapeChar (ascii : Bool) (c : Char) (ht : t ≠ []) :
    readUnits opening (escapeChar ascii c ++ t) =
      (codeUnits ascii c).foldr Reading.cons (readUnits opening t) := by
  -- the characters with an escape of their own are in the first plane
  have hescape {d e : Char} (hd : e ≠ 'u') (hlt : d.toNat < 0x10000)
      (he : shortEscape? e = some d) :
      readUnits opening ('\\' :: e :: t) =
        (codeUnits ascii d).foldr Reading.cons (readUnits opening t) := by
    rw [readUnits_escape hd, he, codeUnits_of_lt ascii hlt]
    rfl
  unfold escapeChar
  split
  next h =>
    simp only [Bool.or_eq_true, decide_eq_true_eq] at h
    rcases h with rfl | rfl
    · exact hescape (by decide) (by decide) rfl
    · exact hescape (by decide) (by decide) rfl
  next hmark =>
    simp only [Bool.or_eq_true, decide_eq_true_eq, not_or] at hmark
    split
    next h => exact h ▸ hescape (by decide) (by decide) rfl
    next =>
      split
      next h => exact h ▸ hescape (by decide) (by decide) rfl
      next =>
        split
        next h => exact h ▸ hescape (by decide) (by decide) rfl
        next =>
          split
          next h => exact h ▸ hescape (by decide) (by decide) rfl
          next =>
            split
            next h => exact h ▸ hescape (by decide) (by decide) rfl
            next =>
              split
              next h =>
                simp only [Bool.or_eq_true, Bool.and_eq_true, decide_eq_true_eq] at h
                exact readUnits_numbered (h.imp (by omega) And.left) ht
              next h =>
                simp only [Bool.or_eq_true, Bool.and_eq_true, decide_eq_true_eq, not_or,
                  not_and] at h
                rw [codeUnits, if_neg fun ⟨hascii, hc⟩ => by have := h.2 hascii; omega]
                exact readUnits_cons hmark.1 hmark.2 (by omega) t

theorem joinUnits_cons (c : Char) (units : List Nat) :
    joinUnits (c.toNat :: units) = c :: joinUnits units := by
  cases units with
  | nil => exact congrArg (fun d => [d]) (unitChar_toNat c)
  | cons n units =>
    rw [joinUnits, (not_surrogate c).1, Bool.false_and, unitChar_toNat]
    rfl

theorem joinSurrogates_halves (hc : 0x10000 ≤ c.toNat) :
    joinSurrogates (0xD800 + (c.toNat - 0x10000) / 1024) (0xDC00 + (c.toNat - 0x10000) % 1024) =
      c := by
  have hsum : 0x10000 + (0xD800 + (c.toNat - 0x10000) / 1024 - 0xD800) * 1024 +
      (0xDC00 + (c.toNat - 0x10000) % 1024 - 0xDC00) = c.toNat := by omega
  rw [joinSurrogates, hsum]
  exact Char.ofNat_toNat c

/-- The code units of written characters are joined into the characters again. -/
theorem joinUnits_codeUnits (ascii : Bool) (t : Text) :
    joinUnits (t.flatMap (codeUnits ascii)) = t := by
  induction t with
  | nil => rfl
  | cons c t ih =>
    rw [List.flatMap_cons, codeUnits]
    split
    next h =>
      have hlt := Quoted.toNat_lt c
      have hhigh : isHighSurrogate (0xD800 + (c.toNat - 0x10000) / 1024) = true := by
        simp only [isHighSurrogate, Bool.and_eq_true, decide_eq_true_eq]
        omega
      have hlow : isLowSurrogate (0xDC00 + (c.toNat - 0x10000) % 1024) = true := by
        simp only [isLowSurrogate, Bool.and_eq_true, decide_eq_true_eq]
        omega
      rw [List.cons_append, List.singleton_append, joinUnits, hhigh, hlow, Bool.and_self,
        if_pos rfl, ih, joinSurrogates_halves h.2]
    next => rw [List.singleton_append, joinUnits_cons, ih]

theorem readUnits_quote (ascii : Bool) (opening : Nat) (t rest : Text) :
    readUnits opening (t.flatMap (escapeChar ascii) ++ '\x22' :: rest) =
      .ok (t.flatMap (codeUnits ascii), rest) := by
  have hcons (units more : List Nat) :
      units.foldr Reading.cons (.ok (more, rest)) = .ok (units ++ more, rest) := by
    induction units with
    | nil => rfl
    | cons n units ih =>
      rw [List.foldr_cons, ih]
      rfl
  induction t with
  | nil => rfl
  | cons c t ih =>
    rw [List.flatMap_cons, List.append_assoc, readUnits_escapeChar ascii c (by simp), ih, hcons,
      List.flatMap_cons]

theorem readChars_quote (ascii : Bool) (opening : Nat) (t rest : Text) :
    readChars opening (t.flatMap (escapeChar ascii) ++ '\x22' :: rest) = .ok (t, rest) := by
  rw [readChars, readUnits_quote]
  simp [joinUnits_codeUnits]

/-! ### White space -/

theorem isSpace_newLine (s : Style) (level : Nat) : ∀ c ∈ s.newLine level, isSpace c = true := by
  unfold Style.newLine
  cases s.indent with
  | none => simp
  | some n =>
    intro c hc
    rcases List.mem_cons.1 hc with rfl | hc
    · rfl
    · rw [List.eq_of_mem_replicate hc]
      rfl

theorem exists_separator (s : Style) (level : Nat) :
    ∃ b, s.separator level = ',' :: b ∧ ∀ c ∈ b, isSpace c = true := by
  unfold Style.separator
  split
  · exact ⟨[' '], rfl, by simp [isSpace]⟩
  · exact ⟨s.newLine level, rfl, isSpace_newLine s level⟩

theorem skipSpace_newLine (hc : isSpace c = false) (t : Text) :
    skipSpace (s.newLine level ++ c :: t) = c :: t := by
  rw [skipSpace_append (isSpace_newLine s level), skipSpace_cons hc]

theorem exists_renderAt (h : Textual d j) (s : Style) (level : Nat) :
    ∃ c t, renderAt s level j = c :: t ∧ isSpace c = false ∧ c ≠ ']' ∧ c ≠ '\ufeff' := by
  cases h with
  | null d => exact ⟨'n', _, rfl, rfl, by decide, by decide⟩
  | bool d b =>
    cases b with
    | false => exact ⟨'f', _, rfl, rfl, by decide, by decide⟩
    | true => exact ⟨'t', _, rfl, rfl, by decide, by decide⟩
  | str d t => exact ⟨'\x22', _, rfl, rfl, by decide, by decide⟩
  | @array d js hjs =>
    cases js with
    | nil => exact ⟨'[', _, rfl, rfl, by decide, by decide⟩
    | cons j js => exact ⟨'[', _, rfl, rfl, by decide, by decide⟩
  | @object d ms hd hms =>
    cases ms with
    | nil => exact ⟨'\x7b', _, rfl, rfl, by decide, by decide⟩
    | cons m ms => exact ⟨'\x7b', _, rfl, rfl, by decide, by decide⟩

theorem skipSpace_renderAt (h : Textual d j) (t : Text) :
    skipSpace (renderAt s level j ++ t) = renderAt s level j ++ t := by
  obtain ⟨c, u, hu, hc, -⟩ := exists_renderAt h s level
  rw [hu, List.cons_append, skipSpace_cons hc]

/-! ### Items and members -/

/-- The value is read from its rendering, whatever follows, by a number that is large enough. -/
def ReadsBack (s : Style) (depth level : Nat) (j : Json) : Prop :=
  ∀ n rest, 2 * (renderAt s level j).length < n →
    readValue n depth (renderAt s level j ++ rest) = .ok (j, rest)

theorem readItems_render (h : ∀ i ∈ j :: js, Textual d i ∧ ReadsBack s depth level i)
    (hn : 2 * (renderAt s level j ++ renderItems s level js).length + 1 < n) (outer : Nat)
    (rest : Text) :
    readItems n depth (renderAt s level j ++
      (renderItems s level js ++ (s.newLine outer ++ ']' :: rest))) = .ok (j :: js, rest) := by
  induction js generalizing j n with
  | nil =>
    simp only [renderItems, List.append_nil, List.nil_append] at hn ⊢
    cases n with
    | zero => omega
    | succ n =>
      exact readItems_last ((h j List.mem_cons_self).2 n _ (by omega)) (skipSpace_newLine rfl rest)
  | cons i js ih =>
    obtain ⟨b, hsep, hb⟩ := exists_separator s level
    simp only [renderItems, hsep, List.cons_append, List.append_assoc, List.length_append,
      List.length_cons] at hn ⊢
    cases n with
    | zero => omega
    | succ n =>
      have hitems := ih (j := i) (n := n) (fun x hx => h x (List.mem_cons_of_mem j hx))
        (by simp only [List.length_append]; omega)
      refine readItems_comma ((h j List.mem_cons_self).2 n _ (by omega)) (skipSpace_cons rfl _) ?_
      rwa [skipSpace_append hb, skipSpace_renderAt (h i (by simp)).1]

theorem ReadsBack.behind_blank (h : ReadsBack s depth level j) (hj : Textual d j)
    (hn : 2 * (renderAt s level j).length < n) (rest : Text) :
    readValue n depth (skipSpace (' ' :: (renderAt s level j ++ rest))) = .ok (j, rest) := by
  rw [skipSpace_blank, skipSpace_renderAt hj]
  exact h n rest hn

/-- The members of an object, of which the first has no separator in front. -/
theorem readMembers_render {name : Text}
    (h : ∀ m ∈ (name, j) :: ms, Textual d m.2 ∧ ReadsBack s depth level m.2)
    (hn : 2 * (renderAt s level j ++ renderMembers s level ms).length + 1 < n) (outer : Nat)
    (rest : Text) :
    readMembers n depth ((quote s.ascii name ++ ':' :: ' ' :: renderAt s level j) ++
      (renderMembers s level ms ++ (s.newLine outer ++ '\x7d' :: rest))) =
        .ok ((name, j) :: ms, rest) := by
  induction ms generalizing name j n with
  | nil =>
    simp only [renderMembers, quote, List.cons_append, List.append_assoc, List.append_nil,
      List.nil_append] at hn ⊢
    cases n with
    | zero => omega
    | succ n =>
      obtain ⟨hj, hread⟩ : Textual d j ∧ ReadsBack s depth level j := h _ List.mem_cons_self
      exact readMembers_last (readChars_quote _ _ name _) (skipSpace_cons rfl _)
        (hread.behind_blank hj (by omega) _) (skipSpace_newLine rfl rest)
  | cons m ms ih =>
    obtain ⟨other, i⟩ := m
    obtain ⟨b, hsep, hb⟩ := exists_separator s level
    cases n with
    | zero => omega
    | succ n =>
      obtain ⟨hj, hread⟩ : Textual d j ∧ ReadsBack s depth level j := h _ List.mem_cons_self
      simp only [renderMembers, hsep, List.length_append, List.length_cons] at hn
      have hmembers := @ih n i other
        (fun x hx => h x (List.mem_cons_of_mem _ hx)) (by simp only [List.length_append]; omega)
      simp only [renderMembers, hsep, quote, List.cons_append, List.append_assoc,
        List.nil_append] at hmembers ⊢
      refine readMembers_comma (readChars_quote _ _ name _) (skipSpace_cons rfl _)
        (hread.behind_blank hj (by omega) _) (skipSpace_cons rfl _) ?_
      rwa [skipSpace_append hb, skipSpace_cons rfl]

theorem put_of_not_mem {name : Text} (h : name ∉ ms.map Prod.fst) :
    put name j ms = ms ++ [(name, j)] := by
  induction ms with
  | nil => rfl
  | cons m ms ih =>
    simp only [List.map_cons, List.mem_cons, not_or] at h
    rw [put, if_neg (Ne.symm h.1), ih h.2, List.cons_append]

/-- Members of distinct names all keep their places. -/
theorem merge_eq (ms : List (Text × Json)) :
    merge ms = ms.foldl (fun acc m => put m.1 m.2 acc) [] := rfl

theorem merge_eq_self (h : (ms.map Prod.fst).Nodup) : merge ms = ms := by
  have key (ms acc : List (Text × Json)) (h : ((acc ++ ms).map Prod.fst).Nodup) :
      ms.foldl (fun acc m => put m.1 m.2 acc) acc = acc ++ ms := by
    induction ms generalizing acc with
    | nil => simp
    | cons m ms ih =>
      have hm : m.1 ∉ acc.map Prod.fst := by
        rw [List.map_append, List.map_cons] at h
        exact fun hmem => (List.nodup_append.1 h).2.2 _ hmem _ (by simp) rfl
      have happend : acc ++ m :: ms = put m.1 m.2 acc ++ ms := by
        rw [put_of_not_mem hm, List.append_assoc, List.singleton_append]
      rw [List.foldl_cons, happend]
      exact ih _ (happend ▸ h)
  exact key ms [] h

/-! ### Values -/

theorem readsBack_array (hjs : ∀ i ∈ js, Textual d i)
    (h : ∀ i ∈ js, ∀ level, ReadsBack s depth level i) (level : Nat) :
    ReadsBack s (depth + 1) level (.array js) := by
  intro n rest hn
  cases n with
  | zero => omega
  | succ n =>
    cases js with
    | nil => rfl
    | cons j js =>
      have hitems := @readItems_render s n d depth (level + 1) j js
        (fun i hi => ⟨hjs i hi, h i hi (level + 1)⟩)
        (by
          simp only [renderAt, List.length_append, List.length_cons] at hn ⊢
          omega) level rest
      obtain ⟨c, t, ht, hspace, hc, -⟩ := exists_renderAt (hjs j List.mem_cons_self) s (level + 1)
      simp only [renderAt, List.cons_append, List.append_assoc, List.nil_append, ht] at hitems ⊢
      rw [readValue_bracket (skipSpace_newLine hspace _) hc, hitems]

theorem readsBack_object (hd : (ms.map Prod.fst).Nodup)
    (hms : ∀ m ∈ ms, Textual d m.2) (h : ∀ m ∈ ms, ∀ level, ReadsBack s depth level m.2)
    (level : Nat) : ReadsBack s (depth + 1) level (.object ms) := by
  intro n rest hn
  cases n with
  | zero => omega
  | succ n =>
    cases ms with
    | nil => rfl
    | cons m ms =>
      obtain ⟨name, j⟩ := m
      have hmembers := @readMembers_render s n d depth (level + 1) j ms name
        (fun m hm => ⟨hms m hm, h m hm (level + 1)⟩)
        (by
          simp only [renderAt, List.length_append, List.length_cons] at hn ⊢
          omega) level rest
      simp only [renderAt, quote, List.cons_append, List.append_assoc, List.nil_append]
        at hmembers ⊢
      rw [readValue_brace (skipSpace_newLine rfl _) (by decide), hmembers]
      simp only [merge_eq_self hd]

theorem readsBack (h : Textual d j) :
    ∀ {depth : Nat}, d ≤ depth → ∀ level, ReadsBack s depth level j := by
  induction h with
  | null d =>
    intro depth _ level n rest hn
    cases n with
    | zero => omega
    | succ n => rfl
  | bool d b =>
    intro depth _ level n rest hn
    cases n with
    | zero => omega
    | succ n => cases b <;> rfl
  | str d t =>
    intro depth _ level n rest hn
    cases n with
    | zero => omega
    | succ n =>
      simp only [renderAt, quote, List.cons_append, List.append_assoc, List.nil_append]
      rw [readValue_quote, readChars_quote]
  | @array d js hjs ih =>
    intro depth hd level
    obtain ⟨k, rfl⟩ := Nat.exists_eq_add_of_lt hd
    exact readsBack_array hjs (fun i hi => ih i hi (by omega)) level
  | @object d ms hdistinct hms ih =>
    intro depth hd level
    obtain ⟨k, rfl⟩ := Nat.exists_eq_add_of_lt hd
    exact readsBack_object hdistinct hms (fun m hm => ih m hm (by omega)) level

/-- A written value is read as itself. -/
theorem read_render [Host] {site : Site} (h : Textual d j) (hd : d ≤ Host.jsonDepth site) :
    read (j.render s) site = .ok j := by
  have hread := readsBack (s := s) h hd 0 (2 * (renderAt s 0 j).length + 2) [] (by omega)
  have hspace := @skipSpace_renderAt s d 0 j h []
  have hmark : (renderAt s 0 j).head? ≠ some '\ufeff' := by
    obtain ⟨c, t, ht, -, -, hc⟩ := exists_renderAt h s 0
    simpa [ht] using hc
  rw [List.append_nil] at hread hspace
  rw [render, read, if_neg hmark, readAll, hspace, hread]
  rfl

/-! ### Escapes -/

theorem isAsciiWord_of_mem_hex {width : Nat} (h : c ∈ Quoted.hex width n) :
    Text.isAsciiWord c = true := by
  have key : ∀ k : Fin 16, Text.isAsciiWord (Decimal.digitChar k) = true := by decide
  obtain ⟨k, hk, rfl⟩ := Quoted.mem_hex h
  exact key ⟨k, hk⟩

theorem mem_numbered (h : c ∈ numbered n) : c = '\\' ∨ Text.isAsciiWord c = true := by
  have hfour {n : Nat} (h : c ∈ ['\\', 'u'] ++ Quoted.hex 4 n) :
      c = '\\' ∨ Text.isAsciiWord c = true := by
    simp only [List.mem_append, List.mem_cons, List.not_mem_nil, or_false] at h
    rcases h with (rfl | rfl) | h
    · exact .inl rfl
    · exact .inr rfl
    · exact .inr (isAsciiWord_of_mem_hex h)
  unfold numbered at h
  split at h
  next => exact hfour h
  next =>
    rcases List.mem_append.1 h with h | h
    · exact hfour h
    · exact hfour h

/-- A character is written as itself, and then it is no control, or as a backslash and more. -/
theorem escapeChar_cases (ascii : Bool) (c : Char) :
    (escapeChar ascii c = [c] ∧ 32 ≤ c.toNat) ∨ ∃ u, escapeChar ascii c = '\\' :: u ∧
      ∀ d ∈ u, d = '\x22' ∨ d = '\\' ∨ Text.isAsciiWord d = true := by
  have hletter {l : Char} (hl : Text.isAsciiWord l = true) :
      ∃ u, ['\\', l] = '\\' :: u ∧ ∀ d ∈ u, d = '\x22' ∨ d = '\\' ∨ Text.isAsciiWord d = true :=
    ⟨[l], rfl, by simp [hl]⟩
  unfold escapeChar
  split
  next hc =>
    simp only [Bool.or_eq_true, decide_eq_true_eq] at hc
    exact .inr ⟨[c], rfl, fun d hd => List.mem_singleton.1 hd ▸ hc.imp_right .inl⟩
  next =>
    repeat' split
    · exact .inr (hletter rfl)
    · exact .inr (hletter rfl)
    · exact .inr (hletter rfl)
    · exact .inr (hletter rfl)
    · exact .inr (hletter rfl)
    next =>
      right
      have hnumbered : ∃ u, numbered c.toNat = '\\' :: u := by
        unfold numbered
        split
        · exact ⟨_, rfl⟩
        · exact ⟨_, rfl⟩
      obtain ⟨u, hu⟩ := hnumbered
      exact ⟨u, hu, fun d hd => .inr (mem_numbered (hu ▸ List.mem_cons_of_mem _ hd))⟩
    next hc =>
      simp only [Bool.or_eq_true, decide_eq_true_eq, not_or] at hc
      exact .inl ⟨rfl, Nat.le_of_not_lt hc.1⟩

/-! ### On one line -/

theorem le_toNat_of_isAsciiWord (h : Text.isAsciiWord c = true) : 32 ≤ c.toNat := by
  simp only [Text.isAsciiWord, Text.isAsciiLetter, Text.isAsciiDigit, Bool.or_eq_true,
    Bool.and_eq_true, decide_eq_true_eq, Char.le_def, UInt32.le_iff_toNat_le] at h
  change 32 ≤ c.val.toNat
  have hbounds : 32 ≤ ('a').val.toNat ∧ 32 ≤ ('A').val.toNat ∧ 32 ≤ ('0').val.toNat := by decide
  omega

/-- No character of the text is numbered below the blank, so none is a tab or a line feed. -/
def Printed (t : Text) : Prop := ∀ c ∈ t, 32 ≤ c.toNat

theorem Printed.append (h : Printed t) (k : Printed u) : Printed (t ++ u) :=
  fun c hc => (List.mem_append.1 hc).elim (h c) (k c)

theorem Printed.cons (hc : 32 ≤ c.toNat) (h : Printed t) : Printed (c :: t) :=
  List.forall_mem_cons.2 ⟨hc, h⟩

theorem printed_of_all (h : t.all (32 ≤ ·.toNat) = true) : Printed t :=
  fun c hc => of_decide_eq_true (List.all_eq_true.1 h c hc)

theorem printed_quote (ascii : Bool) (t : Text) : Printed (quote ascii t) := by
  have hquote : 32 ≤ ('\x22').toNat := by decide
  intro c hc
  simp only [quote, List.mem_cons, List.mem_append, List.not_mem_nil, or_false] at hc
  rcases hc with rfl | hc | rfl
  · exact hquote
  · obtain ⟨d, -, hd⟩ := List.mem_flatMap.1 hc
    rcases escapeChar_cases ascii d with ⟨he, hle⟩ | ⟨u, he, hu⟩
    · rw [he] at hd
      exact List.mem_singleton.1 hd ▸ hle
    · rw [he] at hd
      rcases List.mem_cons.1 hd with rfl | hd
      · decide
      · rcases hu c hd with rfl | rfl | hword
        · exact hquote
        · decide
        · exact le_toNat_of_isAsciiWord hword
  · exact hquote

theorem printed_newLine (hs : s.indent = none) : Printed (s.newLine level) := by
  rw [Style.newLine, hs]
  exact List.forall_mem_nil _

theorem printed_separator (hs : s.indent = none) : Printed (s.separator level) := by
  rw [Style.separator, hs]
  exact printed_of_all rfl

theorem printed_renderItems (hs : s.indent = none) (h : ∀ i ∈ js, Printed (renderAt s level i)) :
    Printed (renderItems s level js) := by
  induction js with
  | nil => exact List.forall_mem_nil _
  | cons j js ih =>
    have hjs := ih fun i hi => h i (List.mem_cons_of_mem j hi)
    exact ((printed_separator hs).append (h j List.mem_cons_self)).append hjs

theorem printed_renderMembers (hs : s.indent = none)
    (h : ∀ m ∈ ms, Printed (renderAt s level m.2)) : Printed (renderMembers s level ms) := by
  induction ms with
  | nil => exact List.forall_mem_nil _
  | cons m ms ih =>
    have hms := ih fun i hi => h i (List.mem_cons_of_mem m hi)
    have hm := ((h m List.mem_cons_self).cons (c := ' ') (by decide)).cons (c := ':') (by decide)
    exact ((printed_separator hs).append ((printed_quote s.ascii m.1).append hm)).append hms

/-- A value that is written on one line is written without controls. -/
theorem printed_renderAt (hs : s.indent = none) (h : Textual d j) :
    ∀ level, Printed (renderAt s level j) := by
  induction h with
  | null d => exact fun _ => printed_of_all rfl
  | bool d b =>
    intro level
    cases b with
    | false => exact printed_of_all rfl
    | true => exact printed_of_all rfl
  | str d t => exact fun _ => printed_quote s.ascii t
  | @array d js hjs ih =>
    intro level
    have hend : Printed (s.newLine level ++ [']']) :=
      (printed_newLine hs).append (.cons (by decide) (List.forall_mem_nil _))
    cases js with
    | nil => exact printed_of_all rfl
    | cons j js =>
      have hjs := printed_renderItems hs fun i hi => ih i (List.mem_cons_of_mem j hi) (level + 1)
      have hj := (@printed_newLine s (level + 1) hs).append
        (ih j List.mem_cons_self (level + 1))
      exact .cons (by decide) (hj.append (hjs.append hend))
  | @object d ms _ hms ih =>
    intro level
    have hend : Printed (s.newLine level ++ ['\x7d']) :=
      (printed_newLine hs).append (.cons (by decide) (List.forall_mem_nil _))
    cases ms with
    | nil => exact printed_of_all rfl
    | cons m ms =>
      obtain ⟨name, j⟩ := m
      have hms := printed_renderMembers hs fun i hi => ih i (List.mem_cons_of_mem _ hi) (level + 1)
      have hj := ((ih _ List.mem_cons_self (level + 1)).cons (c := ' ') (by decide)).cons
        (c := ':') (by decide)
      have hname := (printed_quote s.ascii name).append hj
      have hfirst := (@printed_newLine s (level + 1) hs).append hname
      exact .cons (by decide) (hfirst.append (hms.append hend))

end VariableReport.Json
