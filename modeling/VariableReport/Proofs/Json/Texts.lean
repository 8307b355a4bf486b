import VariableReport.Proofs.Json.Reads
import VariableReport.Proofs.Json.Rendered
import VariableReport.Proofs.Text.Occurrence

/-!
# Texts in JSON

The texts of a value are its strings and the names of its members. Written JSON is woven of them
in quotes and of brackets, commas, colons, white space and words (`woven_renderAt`). A quote that
no backslash protects opens or closes a text. So written JSON has two of them for every text
(`Woven.quotes_eq`), and so has, at the least, every text that is read as the value
(`length_texts_le`). A text that starts with another character than these stands in written JSON
where it stands in one of the texts (`Woven.infix_iff`).
-/

namespace VariableReport.Json

variable {c : Char} {a b m t u rest : Text} {j : Json} {s : Style} {ts us : List Text}
  {ms : List (Text × Json)} {ascii : Bool} {d level : Nat}

mutual

/-- The strings of a value and the names of its members, in order. -/
def texts : Json → List Text
  | str t => [t]
  | array js => itemTexts js
  | object ms => memberTexts ms
  | _ => []

def itemTexts : List Json → List Text
  | [] => []
  | j :: js => texts j ++ itemTexts js

def memberTexts : List (Text × Json) → List Text
  | [] => []
  | (k, j) :: ms => k :: (texts j ++ memberTexts ms)

end

/-! ### Quotes -/

/-- The number of quotes that no backslash protects. -/
def quotes : Text → Nat
  | [] => 0
  | '\\' :: _ :: t => quotes t
  | c :: t => if c = '\x22' then quotes t + 1 else quotes t

@[simp] theorem quotes_nil : quotes [] = 0 := rfl

@[simp] theorem quotes_escape (c : Char) (t : Text) : quotes ('\\' :: c :: t) = quotes t := rfl

@[simp] theorem quotes_quote (t : Text) : quotes ('\x22' :: t) = quotes t + 1 := by
  rw [quotes.eq_def]
  rfl

theorem quotes_cons (hq : c ≠ '\x22') (hb : c ≠ '\\') (t : Text) : quotes (c :: t) = quotes t := by
  rw [quotes.eq_def]
  split
  next h => cases h
  next h => exact absurd (List.cons.inj h).1 hb
  next h =>
    obtain ⟨rfl, rfl⟩ := List.cons.inj h
    exact if_neg hq

theorem quotes_append_of_plain (h : ∀ c ∈ u, c ≠ '\x22' ∧ c ≠ '\\') (t : Text) :
    quotes (u ++ t) = quotes t := by
  induction u with
  | nil => rfl
  | cons c u ih =>
    rw [List.forall_mem_cons] at h
    rw [List.cons_append, quotes_cons h.1.1 h.1.2, ih h.2]

theorem quotes_skipSpace (t : Text) : quotes (skipSpace t) = quotes t := by
  have hspace : ∀ c ∈ t.takeWhile isSpace, c ≠ '\x22' ∧ c ≠ '\\' := fun c hc =>
    have hc : isSpace c = true := List.all_eq_true.1 List.all_takeWhile c hc
    ⟨ne_of_class rfl hc, ne_of_class rfl hc⟩
  conv_rhs => rw [← List.takeWhile_append_dropWhile (p := isSpace) (l := t)]
  exact (quotes_append_of_plain hspace _).symm

/-- A character behind white space, which is no quote. -/
theorem quotes_of_skipSpace (h : skipSpace t = c :: u) (hc : c ≠ '\x22' ∧ c ≠ '\\') :
    quotes t = quotes u := by
  rw [← quotes_skipSpace, h, quotes_cons hc.1 hc.2]

theorem Closes.quotes_eq (h : Closes t rest) : quotes t = quotes rest + 1 := by
  induction h with
  | quote rest => exact quotes_quote rest
  | escape c _ ih => rw [quotes_escape, ih]
  | char hq hb _ ih => rw [quotes_cons hq hb, ih]

theorem isAtomChar_plain (h : isAtomChar c = true) : c ≠ '\x22' ∧ c ≠ '\\' :=
  ⟨ne_of_class rfl h, ne_of_class rfl h⟩

theorem length_memberTexts_put (name : Text) (j : Json) (ms : List (Text × Json)) :
    (memberTexts (put name j ms)).length ≤ (memberTexts ms).length + (texts j).length + 1 := by
  induction ms with
  | nil => simp [put, memberTexts]
  | cons m ms ih =>
    obtain ⟨k, i⟩ := m
    rw [put]
    split
    · simp only [memberTexts, List.length_cons, List.length_append]
      omega
    · simp only [memberTexts, List.length_cons, List.length_append]
      omega

/-- Merging leaves no more texts than there were. -/
theorem length_memberTexts_merge (ms : List (Text × Json)) :
    (memberTexts (merge ms)).length ≤ (memberTexts ms).length := by
  have key (ms acc : List (Text × Json)) :
      (memberTexts (ms.foldl (fun acc m => put m.1 m.2 acc) acc)).length ≤
        (memberTexts acc).length + (memberTexts ms).length := by
    induction ms generalizing acc with
    | nil => simp [memberTexts]
    | cons m ms ih =>
      obtain ⟨k, j⟩ := m
      have hput := length_memberTexts_put k j acc
      have hrest := ih (put k j acc)
      simp only [List.foldl_cons, memberTexts, List.length_cons, List.length_append] at hrest ⊢
      omega
  rw [merge_eq]
  simpa [memberTexts] using key ms []

/-- The texts of what is read in one go. -/
def Part.texts : Part → List Text
  | value j => j.texts
  | items js => itemTexts js
  | members ms => memberTexts ms

/-- Every text that is read has two quotes. -/
theorem Reads.quotes_le {p : Part} (h : Reads t p rest) :
    quotes rest + 2 * p.texts.length ≤ quotes t := by
  induction h with
  | text hs =>
    rw [quotes_quote, (closes_of_readChars hs).quotes_eq]
    exact Nat.le_refl _
  | @atom t rest j h =>
    have hatom := readsAtom_readAtom t
    rw [h] at hatom
    cases hatom with
    | whole rest hs hdigits =>
      rw [quotes_append_of_plain fun c hc => isAtomChar_plain (hs.isAtomChar c hc),
        quotes_append_of_plain fun c hc =>
          isAtomChar_plain (isAtomChar_of_isDigit (hdigits c hc))]
      exact Nat.le_refl _
    | inexact rest hj hchars =>
      rw [quotes_append_of_plain fun c hc => isAtomChar_plain (hchars c hc)]
      cases hj <;> exact Nat.le_refl _
  | @noItems t rest h =>
    rw [quotes_cons (by decide) (by decide), quotes_of_skipSpace h (by decide)]
    exact Nat.le_refl _
  | array _ ih =>
    rw [quotes_skipSpace] at ih
    rwa [quotes_cons (by decide) (by decide)]
  | @noMembers t rest h =>
    rw [quotes_cons (by decide) (by decide), quotes_of_skipSpace h (by decide)]
    exact Nat.le_refl _
  | @object t rest ms _ ih =>
    have hmerge := length_memberTexts_merge ms
    rw [quotes_skipSpace] at ih
    rw [quotes_cons (by decide) (by decide)]
    simp only [Part.texts, Json.texts] at ih ⊢
    omega
  | @lastItem t u rest j _ hu ih =>
    rw [quotes_of_skipSpace hu (by decide)] at ih
    simpa [Part.texts, itemTexts] using ih
  | @item t u v rest j js _ hu _ ihj ihjs =>
    rw [quotes_of_skipSpace hu (by decide)] at ihj
    rw [quotes_skipSpace] at ihjs
    simp only [Part.texts, itemTexts, List.length_append] at ihj ihjs ⊢
    omega
  | @lastMember opening t u v w rest name j hname hu _ hw ih =>
    have hname := (closes_of_readChars hname).quotes_eq
    rw [quotes_of_skipSpace hu (by decide)] at hname
    rw [quotes_of_skipSpace hw (by decide), quotes_skipSpace] at ih
    rw [quotes_quote, hname]
    simp only [Part.texts, memberTexts, List.length_cons, List.length_append, List.length_nil]
      at ih ⊢
    omega
  | @member opening t u v w x rest name j ms hname hu _ hw _ ihj ihms =>
    have hname := (closes_of_readChars hname).quotes_eq
    rw [quotes_of_skipSpace hu (by decide)] at hname
    rw [quotes_of_skipSpace hw (by decide), quotes_skipSpace] at ihj
    rw [quotes_skipSpace] at ihms
    rw [quotes_quote, hname]
    simp only [Part.texts, memberTexts, List.length_cons, List.length_append] at ihj ihms ⊢
    omega

/-- A text that is read has two quotes for every text of its value. -/
theorem length_texts_le [Host] {site : Site} (h : read t site = .ok j) :
    2 * j.texts.length ≤ quotes t := by
  unfold read readAll at h
  split at h
  next => cases h
  next =>
    split at h
    next => cases h
    next i rest hi =>
      have hquotes := ((reads_read _).1 hi).quotes_le
      rw [quotes_skipSpace] at hquotes
      split at h
      next =>
        cases h
        exact Nat.le_trans (Nat.le_add_left _ _) hquotes
      next => cases h

/-! ### Written texts -/

/-- The characters between the texts of written JSON. -/
def isMark (c : Char) : Bool :=
  isSpace c || Text.isAsciiWord c || ['[', ']', '\x7b', '\x7d', ',', ':'].contains c

/-- A text in which others stand in quotes, one after the other, with marks around them. -/
inductive Woven (ascii : Bool) : List Text → Text → Prop
  | nil : Woven ascii [] []
  | mark {c : Char} {ts : List Text} {u : Text} : isMark c = true → Woven ascii ts u →
      Woven ascii ts (c :: u)
  | text {ts : List Text} {u : Text} (t : Text) : Woven ascii ts u →
      Woven ascii (t :: ts) (quote ascii t ++ u)

theorem Woven.append (h : Woven ascii ts t) (k : Woven ascii us u) :
    Woven ascii (ts ++ us) (t ++ u) := by
  induction h with
  | nil => exact k
  | mark hc _ ih => exact .mark hc ih
  | text t _ ih =>
    rw [List.append_assoc]
    exact .text t ih

theorem Woven.marks_append (h : ∀ c ∈ t, isMark c = true) (k : Woven ascii us u) :
    Woven ascii us (t ++ u) := by
  induction t with
  | nil => exact k
  | cons c t ih =>
    rw [List.forall_mem_cons] at h
    exact .mark h.1 (ih h.2)

theorem woven_marks (h : ∀ c ∈ t, isMark c = true) : Woven ascii [] t := by
  simpa using Woven.marks_append h .nil

theorem isMark_of_isSpace (h : isSpace c = true) : isMark c = true := by simp [isMark, h]

theorem isMark_newLine (s : Style) (level : Nat) : ∀ c ∈ s.newLine level, isMark c = true :=
  fun c hc => isMark_of_isSpace (isSpace_newLine s level c hc)

theorem isMark_separator (s : Style) (level : Nat) : ∀ c ∈ s.separator level, isMark c = true := by
  obtain ⟨b, hb, hspace⟩ := exists_separator s level
  rw [hb, List.forall_mem_cons]
  exact ⟨rfl, fun c hc => isMark_of_isSpace (hspace c hc)⟩

/-- What closes a bracket stands behind the last item or member. -/
theorem woven_closing (s : Style) (level : Nat) (hc : isMark c = true) :
    Woven ascii [] (s.newLine level ++ [c]) :=
  .marks_append (isMark_newLine s level) (.mark hc .nil)

theorem woven_renderItems {js : List Json}
    (h : ∀ j ∈ js, Woven s.ascii (texts j) (renderAt s level j)) :
    Woven s.ascii (itemTexts js) (renderItems s level js) := by
  induction js with
  | nil => exact .nil
  | cons j js ih =>
    rw [List.forall_mem_cons] at h
    exact (h.1.marks_append (isMark_separator s level)).append (ih h.2)

theorem woven_member (k : Text) (h : Woven s.ascii (texts j) (renderAt s level j)) :
    Woven s.ascii (k :: texts j) (quote s.ascii k ++ ':' :: ' ' :: renderAt s level j) :=
  .text k (.mark rfl (.mark rfl h))

theorem woven_renderMembers
    (h : ∀ m ∈ ms, Woven s.ascii (texts m.2) (renderAt s level m.2)) :
    Woven s.ascii (memberTexts ms) (renderMembers s level ms) := by
  induction ms with
  | nil => exact .nil
  | cons m ms ih =>
    rw [List.forall_mem_cons] at h
    exact ((woven_member m.1 h.1).marks_append (isMark_separator s level)).append (ih h.2)

theorem woven_renderAt (h : Textual d j) (level : Nat) :
    Woven s.ascii (texts j) (renderAt s level j) := by
  induction h generalizing level with
  | null d =>
    rw [renderAt]
    exact woven_marks (List.all_eq_true.1 rfl)
  | bool d b =>
    rw [renderAt]
    cases b with
    | false => exact woven_marks (List.all_eq_true.1 rfl)
    | true => exact woven_marks (List.all_eq_true.1 rfl)
  | str d t =>
    rw [renderAt, ← List.append_nil (quote s.ascii t)]
    exact .text t .nil
  | @array d js _ ih =>
    cases js with
    | nil => exact .mark rfl (.mark rfl .nil)
    | cons j js =>
      rw [List.forall_mem_cons] at ih
      have hitems := woven_renderItems fun i hi => ih.2 i hi (level + 1)
      have hclosing : Woven s.ascii [] (s.newLine level ++ [']']) := woven_closing s level rfl
      have hrest := (ih.1 (level + 1)).append (hitems.append hclosing)
      rw [List.append_nil] at hrest
      rw [renderAt, List.append_assoc]
      exact .mark rfl (hrest.marks_append (isMark_newLine s (level + 1)))
  | @object d ms _ _ ih =>
    cases ms with
    | nil => exact .mark rfl (.mark rfl .nil)
    | cons m ms =>
      obtain ⟨k, j⟩ := m
      rw [List.forall_mem_cons] at ih
      have hmembers := woven_renderMembers fun m hm => ih.2 m hm (level + 1)
      have hclosing : Woven s.ascii [] (s.newLine level ++ ['\x7d']) := woven_closing s level rfl
      have hrest := (woven_member k (ih.1 (level + 1))).append (hmembers.append hclosing)
      rw [List.append_nil] at hrest
      rw [renderAt, List.append_assoc]
      exact .mark rfl (hrest.marks_append (isMark_newLine s (level + 1)))

theorem quote_append (ascii : Bool) (t u : Text) :
    quote ascii t ++ u = '\x22' :: (t.flatMap (escapeChar ascii) ++ '\x22' :: u) := by
  simp [quote]

theorem closes_quote (ascii : Bool) (t rest : Text) :
    Closes (t.flatMap (escapeChar ascii) ++ '\x22' :: rest) rest :=
  closes_of_readChars (readChars_quote ascii 0 t rest)

theorem isMark_plain (h : isMark c = true) : c ≠ '\x22' ∧ c ≠ '\\' :=
  ⟨ne_of_class rfl h, ne_of_class rfl h⟩

/-- Two quotes stand around each of the texts. -/
theorem Woven.quotes_eq (h : Woven ascii ts u) : quotes u = 2 * ts.length := by
  induction h with
  | nil => rfl
  | mark hc _ ih => rw [quotes_cons (isMark_plain hc).1 (isMark_plain hc).2, ih]
  | text t _ ih =>
    rw [quote_append, quotes_quote, (closes_quote ascii t _).quotes_eq, ih, List.length_cons]
    omega

/-! ### Foreign texts -/

/-- A text that is written without escapes, and that starts with a character which is neither a
mark nor part of an escape. -/
structure Foreign (ascii : Bool) (m : Text) : Prop where
  verbatim : ∀ c ∈ m, escapeChar ascii c = [c]
  start : ∃ c m', m = c :: m' ∧ isMark c = false

theorem Foreign.plain (h : Foreign ascii m) : ∀ c ∈ m, c ≠ '\x22' ∧ c ≠ '\\' := by
  intro c hc
  have hverbatim := h.verbatim c hc
  constructor
  · rintro rfl
    cases ascii <;> contradiction
  · rintro rfl
    cases ascii <;> contradiction

theorem Foreign.ne_nil (h : Foreign ascii m) : m ≠ [] := by
  obtain ⟨c, m', rfl, -⟩ := h.start
  exact List.cons_ne_nil c m'

theorem Foreign.head?_ne_of_isMark (h : Foreign ascii m) (hc : isMark c = true) :
    m.head? ≠ some c := by
  obtain ⟨d, m', rfl, hd⟩ := h.start
  rintro ⟨⟩
  rw [hd] at hc
  contradiction

/-- It does not start with a character that is written otherwise, nor with one of its escape. -/
theorem Foreign.head?_ne_of_mem_escape (h : Foreign ascii m) (hc : escapeChar ascii c ≠ [c]) :
    m.head? ≠ some c ∧ ∀ d ∈ escapeChar ascii c, m.head? ≠ some d := by
  have hself : m.head? ≠ some c := fun he => hc (h.verbatim c (List.mem_of_mem_head? he))
  have hescape : m.head? ≠ some '\\' := fun he => (h.plain _ (List.mem_of_mem_head? he)).2 rfl
  obtain ⟨u, hu, hchars⟩ := (escapeChar_cases ascii c).resolve_left fun h => hc h.1
  refine ⟨hself, ?_⟩
  rw [hu, List.forall_mem_cons]
  refine ⟨hescape, fun d hd => ?_⟩
  rcases hchars d hd with rfl | rfl | hd
  · exact fun he => (h.plain _ (List.mem_of_mem_head? he)).1 rfl
  · exact hescape
  · exact h.head?_ne_of_isMark (by simp [isMark, hd])

theorem prefix_escaped_iff (h : ∀ c ∈ m, escapeChar ascii c = [c]) (t rest : Text) :
    m <+: t.flatMap (escapeChar ascii) ++ '\x22' :: rest ↔ m <+: t := by
  induction t generalizing m with
  | nil =>
    cases m with
    | nil => simp
    | cons d m =>
      have hd : d ≠ '\x22' := by
        rintro rfl
        have hquote := h '\x22' List.mem_cons_self
        cases ascii <;> contradiction
      simp [hd]
  | cons c t ih =>
    cases m with
    | nil => simp
    | cons d m =>
      rw [List.forall_mem_cons] at h
      rw [List.flatMap_cons, List.append_assoc]
      by_cases hc : escapeChar ascii c = [c]
      · rw [hc, List.singleton_append, List.cons_prefix_cons, List.cons_prefix_cons, ih h.2]
      · obtain ⟨u, hu, -⟩ := (escapeChar_cases ascii c).resolve_left fun h => hc h.1
        have hd : d ≠ '\\' := by
          rintro rfl
          cases ascii <;> exact absurd h.1 (by decide)
        have hdc : d ≠ c := by
          rintro rfl
          exact hc h.1
        simp [hu, hd, hdc]

/-- A foreign text stands in a quoted one, with its end, where it stands in the text. -/
theorem Foreign.infix_escaped_iff (h : Foreign ascii m) (t rest : Text) :
    m <:+: t.flatMap (escapeChar ascii) ++ '\x22' :: rest ↔ m <:+: t ∨ m <:+: rest := by
  induction t with
  | nil =>
    have hquote : m.head? ≠ some '\x22' := fun he => (h.plain _ (List.mem_of_mem_head? he)).1 rfl
    rw [List.flatMap_nil, List.nil_append, Text.infix_cons_iff_of_head? h.ne_nil hquote,
      List.infix_nil]
    exact (or_iff_right h.ne_nil).symm
  | cons c t ih =>
    rw [List.flatMap_cons, List.append_assoc]
    by_cases hc : escapeChar ascii c = [c]
    · have hbegins := prefix_escaped_iff h.verbatim (c :: t) rest
      rw [List.flatMap_cons, hc, List.append_assoc] at hbegins
      rw [hc, List.singleton_append, List.infix_cons_iff, ih, List.infix_cons_iff, or_assoc]
      exact or_congr_left hbegins
    · obtain ⟨hself, hescape⟩ := h.head?_ne_of_mem_escape hc
      rw [Text.infix_append_iff_of_head? h.ne_nil hescape, ih,
        Text.infix_cons_iff_of_head? h.ne_nil hself]

/-- A foreign text stands in one of the texts, or not at all. -/
theorem Woven.infix_iff (h : Woven ascii ts u) (hm : Foreign ascii m) :
    m <:+: u ↔ ∃ t ∈ ts, m <:+: t := by
  induction h with
  | nil => simp [hm.ne_nil]
  | mark hc _ ih => rw [Text.infix_cons_iff_of_head? hm.ne_nil (hm.head?_ne_of_isMark hc), ih]
  | text t _ ih =>
    have hquote : m.head? ≠ some '\x22' := fun he => (hm.plain _ (List.mem_of_mem_head? he)).1 rfl
    rw [quote_append, Text.infix_cons_iff_of_head? hm.ne_nil hquote, hm.infix_escaped_iff, ih,
      List.exists_mem_cons_iff]

/-! ### Around a foreign text -/

/-- Behind a text without quotes and backslashes the count starts anew, also when a backslash
stands in front of it. -/
theorem quotes_append (hne : m ≠ []) (hm : ∀ c ∈ m, c ≠ '\x22' ∧ c ≠ '\\') (a b : Text) :
    quotes (a ++ (m ++ b)) = quotes a + quotes b := by
  fun_induction quotes a with
  | case1 => simpa using quotes_append_of_plain hm b
  | case2 c a ih => simpa using ih
  | case3 a hshort ih =>
    rw [List.cons_append, quotes_quote, ih]
    omega
  | case4 c a hshort hq ih =>
    by_cases hb : c = '\\'
    · -- the backslash stands at the end and protects the first character
      subst hb
      cases a with
      | cons d a => exact absurd rfl (hshort d a rfl)
      | nil =>
        obtain ⟨d, m', rfl⟩ := List.exists_cons_of_ne_nil hne
        rw [List.forall_mem_cons] at hm
        simpa using quotes_append_of_plain hm.2 b
    · rw [List.cons_append, quotes_cons hq hb, ih]

theorem Closes.tail (h : Closes (c :: t) rest) (hq : c ≠ '\x22') (hb : c ≠ '\\') :
    Closes t rest := by
  cases h with
  | quote => exact absurd rfl hq
  | escape => exact absurd rfl hb
  | char _ _ h => exact h

theorem Closes.of_plain (hm : ∀ c ∈ m, c ≠ '\x22' ∧ c ≠ '\\') (h : Closes (m ++ b) rest) :
    Closes b rest := by
  induction m with
  | nil => exact h
  | cons c m ih =>
    rw [List.forall_mem_cons] at hm
    exact ih hm.2 (h.tail hm.1.1 hm.1.2)

/-- A text that goes on behind such a text is still to be closed there. -/
theorem Closes.behind (hne : m ≠ []) (hm : ∀ c ∈ m, c ≠ '\x22' ∧ c ≠ '\\') (h : Closes t rest)
    (ht : t = a ++ (m ++ b)) (hlength : rest.length < b.length) : Closes b rest := by
  obtain ⟨e, m', rfl⟩ := List.exists_cons_of_ne_nil hne
  obtain ⟨he, hm'⟩ := List.forall_mem_cons.1 hm
  induction h generalizing a with
  | quote rest =>
    have hlong := congrArg List.length ht
    simp only [List.length_cons, List.length_append] at hlong
    omega
  | @escape t rest c h ih =>
    match a with
    | [] => exact absurd (List.cons.inj ht).1.symm he.2
    | [d] =>
      -- the first character of the text is protected
      have hrest : t = m' ++ b := (List.cons.inj (List.cons.inj ht).2).2
      exact .of_plain hm' (hrest ▸ h)
    | d :: x :: a => exact ih hlength (List.cons.inj (List.cons.inj ht).2).2
  | @char c t rest hq hb h ih =>
    match a with
    | [] =>
      have hrest : t = m' ++ b := (List.cons.inj ht).2
      exact .of_plain hm' (hrest ▸ h)
    | d :: a => exact ih hlength (List.cons.inj ht).2

theorem Foreign.quote_not_mem (h : Foreign ascii m) : '\x22' ∉ m :=
  fun hmem => (h.plain _ hmem).1 rfl

theorem head?_of_append_eq_cons (hne : m ≠ []) (h : c :: u = m ++ b) : m.head? = some c := by
  rw [← List.head?_append_of_ne_nil m hne, ← h, List.head?_cons]

theorem mem_of_append_eq_concat {x : Text} (hne : x ≠ []) (h : t ++ [c] = a ++ x) : c ∈ x := by
  have hlast := congrArg List.getLast? h
  rw [List.getLast?_concat, List.getLast?_append_of_ne_nil a hne] at hlast
  exact List.mem_of_getLast? hlast.symm

/-- A foreign text stands inside quotes: one stands in front of it and one behind. -/
theorem Woven.quotes_pos (h : Woven ascii ts u) (hm : Foreign ascii m) (hu : u = a ++ (m ++ b)) :
    0 < quotes a ∧ 0 < quotes b := by
  induction h generalizing a with
  | nil => exact absurd hu.symm (by simp [hm.ne_nil])
  | mark hc _ ih =>
    cases a with
    | nil => exact absurd (head?_of_append_eq_cons hm.ne_nil hu) (hm.head?_ne_of_isMark hc)
    | cons d a =>
      obtain ⟨rfl, hrest⟩ := List.cons.inj hu
      rw [quotes_cons (isMark_plain hc).1 (isMark_plain hc).2]
      exact ih hrest
  | @text ts u t _ ih =>
    rw [quote_append] at hu
    cases a with
    | nil =>
      have hhead := head?_of_append_eq_cons hm.ne_nil hu
      exact absurd (List.mem_of_mem_head? hhead) hm.quote_not_mem
    | cons d a =>
      obtain ⟨rfl, hrest⟩ := List.cons.inj hu
      rw [quotes_quote]
      refine ⟨Nat.succ_pos _, ?_⟩
      by_cases hlength : u.length < b.length
      · rw [((closes_quote ascii t u).behind hm.ne_nil hm.plain hrest hlength).quotes_eq]
        exact Nat.succ_pos _
      · -- then it stands behind the closing quote, which is no part of it
        rw [← List.singleton_append, ← List.append_assoc] at hrest
        rcases List.append_eq_append_iff.1 hrest with ⟨x, -, hx⟩ | ⟨x, hx, hbehind⟩
        · exact (ih hx).2
        · rcases List.append_eq_append_iff.1 hbehind with ⟨y, rfl, rfl⟩ | ⟨y, rfl, rfl⟩
          · obtain rfl : y = [] := by simpa using hlength
            rw [List.append_nil] at hx
            exact absurd (mem_of_append_eq_concat hm.ne_nil hx) hm.quote_not_mem
          · by_cases hne : x = []
            · subst hne
              exact (ih (a := []) rfl).2
            · have hmem := mem_of_append_eq_concat hne hx
              exact absurd (List.mem_append_left y hmem) hm.quote_not_mem

end VariableReport.Json
