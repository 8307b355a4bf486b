import VariableReport.Directive
import VariableReport.Settings
import VariableReport.Proofs.Json.Rendered
import VariableReport.Proofs.Source.Lexeme
import VariableReport.Proofs.Outcome
import VariableReport.Standard

/-!
# Directives are read back

A directive that is written with a usable keyword and its labels as a JSON array gives just
these labels (`labels?_written`), whatever the labels hold. The keyword starts with no blank, so it
is found behind the white space and nowhere later (`afterKeyword?_keyword`), and all that follows
the colon is the list: its rendering ends in a bracket, so that trimming takes off the white space
behind it only, and holds no line feed, since controls are escaped.
-/

namespace VariableReport.Directive
open Text (IsTrimmed isBlank trim trimStart)
open Outcome

variable {keyword t v w rest : Text} {labels : List Text}

/-! ### Keyword and colon -/

/-- A plain word has a first character, which is no white space. -/
theorem exists_keyword (h : Settings.isPlainWord keyword = true) :
    ∃ k ks, keyword = k :: ks ∧ isBlank k = false := by
  simp only [Settings.isPlainWord, Bool.and_eq_true, Bool.not_eq_true', List.all_eq_true,
    List.mem_filter, decide_eq_true_eq] at h
  cases keyword with
  | nil => simp at h
  | cons k ks =>
    refine ⟨k, ks, rfl, ?_⟩
    by_cases hmark : k ≠ '_' ∧ k ≠ '-'
    · have hk := h.2 k ⟨List.mem_cons_self, by simpa using hmark⟩
      exact Source.isBlank_of_isWord (by simp [Text.isWord, hk])
    · rw [not_and_or, not_not, not_not] at hmark
      rcases hmark with rfl | rfl <;> decide

/-- Where the keyword starts the text, it is found there. -/
theorem afterKeyword?_keyword {k : Char} (ks : Text) (hk : isBlank k = false)
    (hv : ∀ c ∈ v, isBlank c = true) (t : Text) :
    afterKeyword? (k :: ks) (k :: (ks ++ (v ++ ':' :: t))) = some (trimStart t) := by
  have hmark : isBlank ':' = false := by decide
  have hcolon : trimStart (v ++ ':' :: t) = ':' :: t :=
    Text.trimStart_blanks_append hv (by simpa using hmark)
  have hagree : Text.afterAgreeing (k :: ks) (k :: (ks ++ (v ++ ':' :: t))) = some (v ++ ':' :: t) :=
    Text.afterAgreeing_append (k :: ks) _
  unfold afterKeyword?
  rw [if_neg (by simp [hk]), hagree, Option.map_some, hcolon]
  rfl

/-- The search goes on behind white space. -/
theorem afterKeyword?_blanks_append (hw : ∀ c ∈ w, isBlank c = true)
    (h : afterKeyword? keyword t = some rest) : afterKeyword? keyword (w ++ t) = some rest := by
  induction w with
  | nil => exact h
  | cons c w ih =>
    obtain ⟨hc, hw⟩ := List.forall_mem_cons.1 hw
    rw [List.cons_append]
    unfold afterKeyword?
    rw [if_pos hc, ih hw]

/-- A comment of a keyword, a colon and a bracketed list on one line has the list for its body:
the white space between them is left out, and so is the white space at the end. -/
theorem body?_comment {k : Char} {ks body v₁ v₂ v₃ v₄ : Text} (hk : isBlank k = false)
    (h₁ : ∀ c ∈ v₁, isBlank c = true) (h₂ : ∀ c ∈ v₂, isBlank c = true)
    (h₃ : ∀ c ∈ v₃, isBlank c = true) (h₄ : ∀ c ∈ v₄, isBlank c = true)
    (hbody : IsTrimmed body) (hopen : body.head? = some '[') (hline : '\n' ∉ body) :
    body? (k :: ks) ('#' :: (v₁ ++ (k :: ks) ++ v₂ ++ [':'] ++ v₃ ++ body ++ v₄)) = some body := by
  have hne : body ≠ [] := by
    rintro rfl
    cases hopen
  have hmark : isBlank '#' = false := by decide
  have htrim : trim ('#' :: (v₁ ++ (k :: ks) ++ v₂ ++ [':'] ++ v₃ ++ body ++ v₄)) =
      '#' :: (v₁ ++ (k :: (ks ++ (v₂ ++ ':' :: (v₃ ++ body))))) := by
    have hall : IsTrimmed ('#' :: (v₁ ++ (k :: ks) ++ v₂ ++ [':'] ++ v₃) ++ body) :=
      hbody.append (by simpa using hmark) hne
    simpa using Text.trim_append_blanks hall h₄
  have hstart : trimStart (v₃ ++ body) = body := Text.trimStart_blanks_append h₃ hbody.1
  have hafter := afterKeyword?_blanks_append h₁ (afterKeyword?_keyword ks hk h₂ (v₃ ++ body))
  obtain ⟨t, rfl⟩ := List.head?_eq_some_iff.1 hopen
  unfold body?
  rw [htrim]
  simp [hafter, hstart, Text.startsWith, hline]

/-! ### The list -/

/-- The labels as a JSON array on one line. -/
def written (labels : List Text) : Text := (Json.array (labels.map .str)).render .compact

theorem textual_array (labels : List Text) : Json.Textual 1 (.array (labels.map .str)) := by
  refine .array fun j hj => ?_
  obtain ⟨l, -, rfl⟩ := List.mem_map.1 hj
  exact .str 0 l

theorem lineFeed_not_mem_written (labels : List Text) : '\n' ∉ written labels := fun h =>
  absurd (Json.printed_renderAt (s := .compact) rfl (textual_array labels) 0 _ h) (by decide)

theorem exists_written (hne : labels ≠ []) : ∃ t, written labels = '[' :: t ++ [']'] := by
  cases labels with
  | nil => contradiction
  | cons l ls =>
    refine ⟨Json.quote true l ++ Json.renderItems .compact 1 (ls.map .str), ?_⟩
    rw [List.cons_append, List.append_assoc]
    rfl

theorem bracketed?_written [Host] (labels : List Text) (site : Site) :
    Listing.bracketed? (written labels) site = .ok (some (labels.map .str)) := by
  have hvalues : Json.toValues (labels.map .str) = labels.map .str := by
    induction labels with
    | nil => rfl
    | cons l ls ih => rw [List.map_cons, Json.toValues, Json.toValue, ih, List.map_cons]
  have hroom : 1 ≤ Host.jsonDepth site := Nat.le_trans (by decide) (Host.jsonDepth_ge site)
  have hread := Json.read_render (s := .compact) (textual_array labels) hroom
  have hjson : Listing.json? (written labels) site = .ok (some (labels.map .str)) := by
    rw [Listing.json?, written, hread]
    exact congrArg (fun items => Except.ok (some items)) hvalues
  rw [Listing.bracketed?, Listing.strict?, hjson]
  rfl

/-- Trimmed labels are left as they are. -/
theorem mapM_label (ht : ∀ l ∈ labels, IsTrimmed l) :
    (labels.map Value.str).mapM label = .ok labels := by
  rw [mapM_eq_ok_iff, List.forall₂_map_left_iff, List.forall₂_same]
  exact fun l hl => congrArg Except.ok (Text.trim_eq_self (ht l hl))

/-- Labels that are written as a JSON array behind an accepted keyword are read back as they are,
with any runs of spaces and tabs around the keyword, the colon and the array. -/
theorem labels?_written [Host] {s : Settings} (hs : s.check = .ok s) (hne : labels ≠ [])
    (ht : ∀ l ∈ labels, IsTrimmed l) {v₁ v₂ v₃ v₄ : Text}
    (hv : ∀ c ∈ v₁ ++ v₂ ++ v₃ ++ v₄, c = ' ' ∨ c = '\t') :
    labels? s.tableDirective
      ('#' :: (v₁ ++ s.tableDirective ++ v₂ ++ [':'] ++ v₃ ++ written labels ++ v₄)) =
        .ok (some labels) := by
  have hblank (c : Char) (hc : c ∈ v₁ ++ v₂ ++ v₃ ++ v₄) : isBlank c = true := by
    rcases hv c hc with rfl | rfl <;> decide
  simp only [List.mem_append, or_imp, forall_and] at hblank
  obtain ⟨⟨⟨h₁, h₂⟩, h₃⟩, h₄⟩ := hblank
  have husable : s.Usable := by
    refine .of_misuse?_eq_none ?_
    cases hm : s.misuse? with
    | none => rfl
    | some m => simp [Settings.check, hm] at hs
  obtain ⟨k, ks, hkey, hk⟩ := exists_keyword husable.directive
  obtain ⟨t, hwritten⟩ := exists_written hne
  have hlist : IsTrimmed (written labels) := by
    have hopen : isBlank '[' = false := by decide
    have hclose : isBlank ']' = false := by decide
    rw [hwritten]
    exact IsTrimmed.append ⟨by simpa using hclose, by simpa using hclose⟩ (by simpa using hopen)
      (List.cons_ne_nil _ _)
  have hbody := @body?_comment k ks _ _ _ _ _ hk h₁ h₂ h₃ h₄ hlist (by rw [hwritten]; rfl)
    (lineFeed_not_mem_written labels)
  rw [labels?, hkey, hbody]
  dsimp only
  rw [bracketed?_written]
  obtain ⟨l, ls, rfl⟩ := List.exists_cons_of_ne_nil hne
  change ((Value.str l :: ls.map Value.str).mapM label >>= fun ls => .ok (some ls)) = _
  rw [← List.map_cons, mapM_label ht]
  rfl

theorem labels?_written_marks :
    Settings.check { symbols := [], tableDirective := "Zeile-1".toList } =
        .ok { symbols := [], tableDirective := "Zeile-1".toList } ∧
      (∀ l ∈ ["# Zeile-1: [\"a\", 'b']".toList, [], "é:\n😀]".toList], IsTrimmed l) ∧
      labels? "Zeile-1".toList
        ('#' :: ([' ', '\t'] ++ "Zeile-1".toList ++ [] ++ [':'] ++ ['\t'] ++
          written ["# Zeile-1: [\"a\", 'b']".toList, [], "é:\n😀]".toList] ++ [' '])) =
        .ok (some ["# Zeile-1: [\"a\", 'b']".toList, [], "é:\n😀]".toList]) := by
  have hcheck : Settings.check { symbols := [], tableDirective := "Zeile-1".toList } =
      .ok { symbols := [], tableDirective := "Zeile-1".toList } := by
    decide +kernel
  have htrim : ∀ l ∈ ["# Zeile-1: [\"a\", 'b']".toList, [], "é:\n😀]".toList], IsTrimmed l := by
    have hself : ∀ l ∈ ["# Zeile-1: [\"a\", 'b']".toList, [], "é:\n😀]".toList], trim l = l := by
      decide +kernel
    exact fun l hl => Text.isTrimmed_of_trim_eq (hself l hl)
  exact ⟨hcheck, htrim, labels?_written hcheck (by decide) htrim (by simp)⟩

end VariableReport.Directive
