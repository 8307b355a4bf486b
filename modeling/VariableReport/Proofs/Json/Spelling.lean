import VariableReport.Proofs.Json.Number
import VariableReport.Proofs.Json.Quoted
import VariableReport.Proofs.Json.Reader
import VariableReport.Proofs.Literal.Spelling

/-!
# Plain values as JSON

The literal of a plain value need not be JSON, but it never is the JSON of another value:
reading it stops at a fault of form or gives the value itself (`stands_spelling`). Numbers
are short enough and the brackets few enough that no other fault is met.
-/

namespace VariableReport.Json
open Value (Plain spelling tailText)
open Literal (Delimited delimited_tailText)

variable {d n depth : Nat} {v : Value} {vs : List Value} {c : Char} {t rest : Text}

/-- What was read stands for the value, if the text is JSON at all. -/
def Stands (v : Value) (rest : Text) (r : Reading Json) : Prop :=
  Yields (fun j => j.toValue = v) rest r

theorem stands_readValue (hc : c ≠ '\x22' ∧ c ≠ '[' ∧ c ≠ '\x7b')
    (h : Stands v rest (readAtom (c :: t))) : Stands v rest (readValue n depth (c :: t)) := by
  obtain ⟨hquote, hbracket, hbrace⟩ := hc
  cases n with
  | zero => exact .malformed _ _
  | succ n =>
    rw [readValue.eq_def]
    dsimp only
    split
    next h => exact absurd (List.cons.inj h).1 hquote
    next h => exact absurd (List.cons.inj h).1 hbracket
    next h => exact absurd (List.cons.inj h).1 hbrace
    next => exact h

theorem stands_malformed (hc : c ≠ '\x22' ∧ c ≠ '[' ∧ c ≠ '\x7b') (hminus : c ≠ '-')
    (hdigit : isDigit c = false) (hword : words.find? (·.1.isPrefixOf (c :: t)) = none) :
    Stands v rest (readValue n depth (c :: t)) := by
  apply stands_readValue hc
  rw [readAtom_malformed hword hminus hdigit]
  exact .malformed _ _

/-- A text in single quotes is no JSON. -/
theorem stands_text (t rest : Text) :
    Stands (.str t) rest (readValue n depth (Quoted.text t ++ rest)) := by
  unfold Quoted.text
  dsimp only
  cases Quoted.quoteFor_eq (t.contains Quoted.singleQuote) (t.contains Quoted.doubleQuote) with
  | inl hq =>
    rw [hq]
    exact stands_malformed (by decide) (by decide) (by decide)
      (find?_words_of_start (by decide) _)
  | inr hq =>
    rw [hq, List.cons_append, List.append_assoc, List.singleton_append]
    cases n with
    | zero => exact .malformed _ _
    | succ n =>
      have hchars := fun opening => yields_readChars opening t rest
      generalize t.flatMap _ ++ _ = u at hchars ⊢
      change Stands (.str t) rest (readValue (n + 1) depth ('\x22' :: u))
      rw [readValue_quote]
      have h := hchars (u.length + 1)
      generalize readChars (u.length + 1) u = r at h ⊢
      cases h with
      | ok hs => exact .ok (by rw [hs]; rfl)
      | malformed cause left => exact .malformed cause left

/-- A digit is no space and starts or ends nothing but a number. -/
theorem digit_start (hc : Text.isAsciiDigit c = true) :
    isSpace c = false ∧ c ≠ ']' ∧ c ≠ '\x22' ∧ c ≠ '[' ∧ c ≠ '\x7b' := by
  have hne : c ∉ [' ', '\t', '\n', '\r', ']', '\x22', '[', '\x7b'] :=
    Decimal.not_mem_of_isAsciiDigit (by decide) hc
  simp only [List.mem_cons, List.not_mem_nil, or_false, not_or] at hne
  simp [isSpace, hne]

theorem exists_spelling (h : Plain d v) :
    ∃ c t, spelling v = c :: t ∧ isSpace c = false ∧ c ≠ ']' := by
  cases h with
  | none d => exact ⟨'N', _, rfl, rfl, by decide⟩
  | bool d b =>
    cases b with
    | false => exact ⟨'F', _, rfl, rfl, by decide⟩
    | true => exact ⟨'T', _, rfl, rfl, by decide⟩
  | @int d n hn =>
    rw [Value.spelling_int hn]
    cases n with
    | ofNat n =>
      obtain ⟨c, cs, hcs, hc⟩ := Decimal.exists_natText n
      exact ⟨c, cs, hcs, (digit_start hc).1, (digit_start hc).2.1⟩
    | negSucc n => exact ⟨'-', _, rfl, rfl, by decide⟩
  | str d t =>
    refine ⟨_, _, rfl, ?_⟩
    cases Quoted.quoteFor_eq (t.contains Quoted.singleQuote) (t.contains Quoted.doubleQuote) with
    | inl hq => rw [hq]; decide
    | inr hq => rw [hq]; decide
  | @list d vs hvs =>
    cases vs with
    | nil => exact ⟨'[', _, rfl, rfl, by decide⟩
    | cons v vs => exact ⟨'[', _, Value.spelling_list_cons hvs, rfl, by decide⟩
  | @tuple d vs hvs =>
    cases vs with
    | nil => exact ⟨'(', _, rfl, rfl, by decide⟩
    | cons v vs => exact ⟨'(', _, Value.spelling_tuple_cons hvs, rfl, by decide⟩

theorem skipSpace_spelling (h : Plain d v) (t : Text) :
    skipSpace (spelling v ++ t) = spelling v ++ t := by
  obtain ⟨c, u, hu, hc, -⟩ := exists_spelling h
  rw [hu, List.cons_append, skipSpace_cons hc]

/-- After an item comes the end of the array or the next item. -/
theorem yields_readItems {v : Value} (h : ∀ w ∈ v :: vs, Plain d w ∧ ∀ {n : Nat} {rest : Text},
      Delimited rest → Stands w rest (readValue n depth (spelling w ++ rest))) (rest : Text) :
    Yields (fun js => toValues js = v :: vs) rest
      (readItems n depth (spelling v ++ (tailText vs ++ ']' :: rest))) := by
  induction vs generalizing v n with
  | nil =>
    cases n with
    | zero => exact .malformed _ _
    | succ n =>
      have hitem := (h v List.mem_cons_self).2 (n := n) (delimited_tailText [] (.bracket rest))
      rw [readItems]
      generalize readValue n depth _ = r at hitem ⊢
      cases hitem with
      | malformed cause left => exact .malformed cause left
      | ok hj => exact .ok (by simp [toValues, hj])
  | cons w vs ih =>
    cases n with
    | zero => exact .malformed _ _
    | succ n =>
      have hitem := (h v List.mem_cons_self).2 (n := n)
        (delimited_tailText (w :: vs) (.bracket rest))
      have hitems := ih (n := n) (v := w) fun x hx => h x (List.mem_cons_of_mem v hx)
      rw [← skipSpace_spelling (h w (by simp)).1] at hitems
      rw [readItems]
      generalize readValue n depth _ = r at hitem ⊢
      cases hitem with
      | malformed cause left => exact .malformed cause left
      | @ok j hj =>
        have hmore : tailText (w :: vs) ++ ']' :: rest =
            ',' :: ' ' :: (spelling w ++ (tailText vs ++ ']' :: rest)) := by
          rw [Value.tailText_cons]
          simp
        rw [hmore]
        dsimp only
        rw [skipSpace_cons rfl]
        split
        next more h => exact absurd (List.cons.inj h).1 (by decide)
        next more h =>
          cases h
          rw [skipSpace_blank]
          generalize readItems n depth _ = r at hitems ⊢
          cases hitems with
          | ok hjs => exact .ok (by simp [toValues, hj, hjs])
          | malformed cause left => exact .malformed cause left
        next h => exact absurd rfl (h _)

theorem stands_list (hvs : ∀ v ∈ vs, Plain d v) (h : ∀ v ∈ vs, ∀ {n depth : Nat} {rest : Text},
      d ≤ depth → Delimited rest → Stands v rest (readValue n depth (spelling v ++ rest)))
    (hd : d < depth) (rest : Text) :
    Stands (.list vs) rest (readValue n depth (spelling (.list vs) ++ rest)) := by
  obtain ⟨m, rfl⟩ := Nat.exists_eq_add_of_lt hd
  cases n with
  | zero => exact .malformed _ _
  | succ n =>
    cases vs with
    | nil =>
      rw [Value.spelling_list_nil, List.cons_append, readValue]
      exact .ok rfl
    | cons v vs =>
      have hitems := yields_readItems (n := n)
        (fun w hw => ⟨hvs w hw, h w hw (by omega : d ≤ d + m)⟩) rest
      obtain ⟨c, t, ht, hspace, hc⟩ := exists_spelling (hvs v List.mem_cons_self)
      have hread := @readValue_bracket _ _ _ n (d + m)
        (skipSpace_cons hspace (t ++ (tailText vs ++ ']' :: rest))) hc
      rw [Value.spelling_list_cons hvs, List.cons_append, List.append_assoc, List.append_assoc,
        List.singleton_append, ht, List.cons_append, hread]
      rw [ht, List.cons_append] at hitems
      generalize readItems n (d + m) _ = r at hitems ⊢
      cases hitems with
      | ok hjs => exact .ok (by simp [toValue, hjs])
      | malformed cause left => exact .malformed cause left

theorem stands_spelling (h : Plain d v) : ∀ {n depth : Nat} {rest : Text}, d ≤ depth →
    Delimited rest → Stands v rest (readValue n depth (spelling v ++ rest)) := by
  induction h with
  | none d =>
    intro n depth rest _ hrest
    exact stands_malformed (by decide) (by decide) (by decide) rfl
  | bool d b =>
    intro n depth rest _ hrest
    cases b with
    | false => exact stands_malformed (by decide) (by decide) (by decide) rfl
    | true => exact stands_malformed (by decide) (by decide) (by decide) rfl
  | @int d m hm =>
    intro n depth rest _ hrest
    rw [Value.spelling_int hm]
    cases m with
    | ofNat m =>
      have hatom := readAtom_natText (n := m) hm hrest
      obtain ⟨c, cs, hcs, hc⟩ := Decimal.exists_natText m
      rw [Decimal.intText, hcs, List.cons_append]
      rw [hcs, List.cons_append] at hatom
      apply stands_readValue (digit_start hc).2.2
      rw [hatom]
      exact .ok rfl
    | negSucc m =>
      have hatom := readAtom_minus_natText (n := m + 1) hm hrest
      rw [Decimal.intText, List.cons_append]
      apply stands_readValue (by decide)
      rw [hatom]
      exact .ok rfl
  | str d t =>
    intro n depth rest _ hrest
    exact stands_text t rest
  | @list d vs hvs ih =>
    intro n depth rest hd hrest
    exact stands_list hvs ih (by omega) rest
  | @tuple d vs hvs ih =>
    intro n depth rest _ hrest
    obtain ⟨t, ht⟩ : ∃ t, spelling (.tuple vs) = '(' :: t := by
      cases vs with
      | nil => exact ⟨_, rfl⟩
      | cons v vs => exact ⟨_, Value.spelling_tuple_cons hvs⟩
    rw [ht]
    exact stands_malformed (by decide) (by decide) (by decide) rfl

end VariableReport.Json
