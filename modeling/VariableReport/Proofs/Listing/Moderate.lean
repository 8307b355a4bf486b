import VariableReport.Proofs.Json.Moderate
import VariableReport.Proofs.Listing.Bounds
import VariableReport.Proofs.Literal.Bounds
import VariableReport.Proofs.Matrix.Shape
import VariableReport.Proofs.Text.Blank

/-!
# Moderate texts

In a moderate text no run that starts with a digit is longer than a number may be whose value is in
the range of double precision, and no more containers are open at once than the host leaves room
for where the text is read. A moderate text is read as a list and as a matrix, whatever else stands
in it (`Moderate.not_overtaxes`), and so is a table directive of which the list is moderate.
-/

namespace VariableReport
open Outcome

variable {t keyword comment : Text} {items rows : List Value} {v : Value} {site : Site}

namespace Listing

variable [Host]

/-- A text with short runs and without too deep a nesting. -/
structure Moderate (site : Site) (t : Text) : Prop where
  runs : t.ShortRuns
  depth : Json.overflows false (Host.jsonDepth site) t = false

theorem Moderate.not_overtaxes (h : Moderate site t) : ¬Overtaxes site t := by
  rintro (⟨hread, hbound⟩ | ⟨-, hread⟩)
  · obtain ⟨cause, offset, line, column, rfl⟩ := Json.form_of_read h.runs h.depth hread
    cases hbound
  · have hanswers := Literal.answers_read (h.runs.part (Text.infix_trim t)) site
    rw [hread] at hanswers
    cases hanswers

theorem overtaxes_of_long (site : Site) {c : Char} (hzero : c ≠ '0')
    (ht : ∀ d ∈ c :: t, Json.isDigit d = true)
    (hlong : Value.maxDigits < (c :: t).length) : Overtaxes site (c :: t) :=
  .json (Json.read_of_long site hzero ht hlong) (.digits _)

theorem moderate_json? (ht : t.ShortRuns) (h : json? t site = .ok (some items)) :
    ∀ v ∈ items, v.Moderate := by
  unfold json? at h
  split at h
  next js hread =>
    cases h
    cases Json.moderate_of_read ht hread with
    | list hitems => exact hitems
  next => cases h
  next => cases h
  next => cases h

theorem moderate_literal? (ht : t.ShortRuns) (h : literal? t site = .ok (some items)) :
    ∀ v ∈ items, v.Moderate := by
  have hanswers := Literal.answers_read (ht.part (Text.infix_trim t)) site
  unfold literal? at h
  split at h
  next hread =>
    cases h
    rw [hread] at hanswers
    cases hanswers with
    | ok hv => cases hv with | list hitems => exact hitems
  next hread =>
    cases h
    rw [hread] at hanswers
    cases hanswers with
    | ok hv => cases hv with | tuple hitems => exact hitems
  next => cases h
  next => cases h
  next => cases h

theorem moderate_strict? (ht : t.ShortRuns) (h : strict? t site = .ok (some items)) :
    ∀ v ∈ items, v.Moderate := by
  obtain ⟨items?, hjson, h⟩ := bind_eq_ok.1 h
  cases items? with
  | none => exact moderate_literal? ht h
  | some js =>
    cases h
    exact moderate_json? ht hjson

theorem moderate_bracketed? (ht : t.ShortRuns) (h : bracketed? t site = .ok (some items)) :
    ∀ v ∈ items, v.Moderate := by
  obtain ⟨items?, hstrict, h⟩ := bind_eq_ok.1 h
  cases items? with
  | none =>
    obtain ⟨texts, -, rfl⟩ := Option.map_eq_some_iff.1 (Except.ok.inj h)
    intro v hv
    obtain ⟨u, -, rfl⟩ := List.mem_map.1 hv
    exact .str u
  | some vs =>
    cases h
    exact moderate_strict? ht hstrict

end Listing

namespace Matrix

/-- The entries of a matrix are items of the items it was read from. -/
theorem exists_of_mem_row {m : Matrix} {row : List Entry} {n : Int} (h : ofRows? rows = some m)
    (hrow : row ∈ m.rows) (hn : .int n ∈ row) :
    ∃ v ∈ rows, ∃ items, Lists v items ∧ .int n ∈ items := by
  obtain ⟨width, hreads⟩ := ofRows?_eq_some_iff.1 h
  obtain ⟨v, hv, hlists⟩ := exists_of_mem_forall₂ hreads.lists.flip hrow
  exact ⟨v, hv, _, hlists, List.mem_map_of_mem hn⟩

theorem not_overtaxes_of_moderate [Host] (h : Listing.Moderate .matrix t) : ¬Overtaxes t := by
  rintro (hlist | @⟨rows, m, row, n, hstrict, hm, hrow, hn, hrange⟩)
  · exact h.not_overtaxes hlist
  · obtain ⟨v, hv, items, hlists, hitem⟩ := exists_of_mem_row hm hrow hn
    have hint : Value.Moderate (.int n) := by
      have hmoderate := Listing.moderate_strict? h.runs hstrict v hv
      cases hlists with
      | list => cases hmoderate with | list hitems => exact hitems _ hitem
      | tuple => cases hmoderate with | tuple hitems => exact hitems _ hitem
    cases hint with
    | int hbound => exact Double.ofInt?_ne_none hbound hrange

end Matrix

namespace Directive

theorem not_overtaxes_of_moderate [Host]
    (h : ∀ body, body? keyword comment = some body → Listing.Moderate .directive body) :
    ¬Overtaxes keyword comment := by
  rintro (@⟨body, hbody, hlist⟩ | @⟨body, items, v, hbody, hitems, hv, hnone⟩)
  · exact (h body hbody).not_overtaxes hlist
  · exact (Listing.moderate_bracketed? (h body hbody).runs hitems v hv).text?_ne_none hnone

end Directive

end VariableReport
