import VariableReport.Directive
import VariableReport.Proofs.Matrix.Shape

/-!
# Texts that are too much to read

Reading a text as a list, as a matrix or as a table directive comes to an answer for almost all
texts, since a text of the wrong form is no list. Four things are no matter of form: a whole number
with too many digits and too deep a nesting in JSON, a whole number out of range beside an imaginary
one in a literal, and a whole number that is out of range for a matrix or too long for a label. They
are told from what has been read (`Overtaxes`), and nothing else keeps the readings from an answer
(`exists_strict?_iff`, `exists_latex?_iff`, `exists_labels?_iff`).
-/

namespace VariableReport
open Outcome

variable {t keyword comment : Text} {site : Site}

/-- A fault that is not one of form. -/
inductive Json.Fault.IsBound : Json.Fault → Prop
  | digits (count : Nat) : IsBound (.tooManyDigits count)
  | depth (container : Json.Container) : IsBound (.tooDeep container)

theorem Json.Fault.isBound_of_not_malformed {f : Json.Fault}
    (h : ∀ cause offset line column, f ≠ .malformed cause offset line column) : f.IsBound := by
  cases f with
  | malformed cause offset line column => exact (h cause offset line column rfl).elim
  | tooManyDigits count => exact .digits count
  | tooDeep container => exact .depth container

namespace Listing

variable [Host]

/-- Reading the text somewhere as a JSON array or as a literal meets a bound. -/
inductive Overtaxes (site : Site) (t : Text) : Prop
  | json {f : Json.Fault} : Json.read t site = .error f → f.IsBound → Overtaxes site t
  | literal : json? t site = .ok none → Literal.read (Text.trim t) site = .error .outOfRange →
      Overtaxes site t

theorem exists_json?_iff :
    (∃ items, json? t site = .ok items) ↔ ∀ f, Json.read t site = .error f → ¬f.IsBound := by
  unfold json?
  split
  next h => simp [h]
  next h => simp [h]
  next h =>
    rw [h]
    refine iff_of_true ⟨_, rfl⟩ ?_
    rintro _ ⟨⟩ ⟨⟩
  next f hform h =>
    rw [h]
    exact iff_of_false (by simp) fun hbound =>
      hbound f rfl (Json.Fault.isBound_of_not_malformed hform)

theorem exists_literal?_iff :
    (∃ items, literal? t site = .ok items) ↔
      Literal.read (Text.trim t) site ≠ .error .outOfRange := by
  unfold literal?
  split
  all_goals
    next h => simp [h]

theorem exists_strict?_iff : (∃ items, strict? t site = .ok items) ↔ ¬Overtaxes site t := by
  rw [strict?, exists_bind_eq_ok]
  constructor
  · rintro ⟨items?, hjson, hrest⟩ hover
    cases hover with
    | json h hbound => exact exists_json?_iff.1 ⟨items?, hjson⟩ _ h hbound
    | literal hnone h =>
      obtain rfl := Except.ok.inj (hjson.symm.trans hnone)
      exact exists_literal?_iff.1 hrest h
  · intro hover
    obtain ⟨items?, hjson⟩ := exists_json?_iff.2 fun f h hbound => hover (.json h hbound)
    refine ⟨items?, hjson, ?_⟩
    cases items? with
    | some items => exact ⟨_, rfl⟩
    | none => exact exists_literal?_iff.2 fun h => hover (.literal hjson h)

theorem exists_bracketed?_iff : (∃ items, bracketed? t site = .ok items) ↔ ¬Overtaxes site t := by
  rw [bracketed?, exists_bind_eq_ok, ← exists_strict?_iff]
  refine exists_congr fun items? => and_iff_left ?_
  cases items? <;> exact ⟨_, rfl⟩

end Listing

namespace Matrix

theorem inRange_iff {m : Matrix} : (m.rows.all fun row => row.all Entry.inRange) = true ↔
    ∀ row ∈ m.rows, ∀ n, Entry.int n ∈ row → Double.ofInt? n ≠ none := by
  simp only [List.all_eq_true]
  refine forall₂_congr fun row _ => ⟨fun h n hn => ?_, fun h e he => ?_⟩
  · exact Option.isSome_iff_ne_none.1 (h _ hn)
  · cases e with
    | int n => exact Option.isSome_iff_ne_none.2 (h n he)
    | float d => rfl

variable [Host]

/-- Reading the text as a list meets a bound, or the list is a matrix with a whole number out of
the range of double precision. -/
inductive Overtaxes (t : Text) : Prop
  | list : Listing.Overtaxes .matrix t → Overtaxes t
  | entry {rows : List Value} {m : Matrix} {row : List Entry} {n : Int} :
      Listing.strict? t .matrix = .ok (some rows) → ofRows? rows = some m → row ∈ m.rows →
      .int n ∈ row → Double.ofInt? n = none → Overtaxes t

theorem exists_latex?_iff [Arrays] : (∃ latex, latex? t = .ok latex) ↔ ¬Overtaxes t := by
  rw [latex?, exists_bind_eq_ok]
  simp only [Except.ok.injEq, exists_eq', and_true]
  rw [read?_eq, exists_bind_eq_ok]
  constructor
  · rintro ⟨items?, hstrict, hrest⟩ hover
    cases hover with
    | list h => exact Listing.exists_strict?_iff.1 ⟨items?, hstrict⟩ h
    | @entry rows m row n h hm hrow hn hrange =>
      obtain rfl := Except.ok.inj (hstrict.symm.trans h)
      have hout : ¬(m.rows.all fun row => row.all Entry.inRange) = true := fun hall =>
        inRange_iff.1 hall row hrow n hn hrange
      simp [hm, hout] at hrest
  · intro hover
    obtain ⟨items?, hstrict⟩ := Listing.exists_strict?_iff.2 fun h => hover (.list h)
    refine ⟨items?, hstrict, ?_⟩
    cases items? with
    | none => exact ⟨_, rfl⟩
    | some rows =>
      dsimp only
      split
      next => exact ⟨_, rfl⟩
      next m hm =>
        rw [if_pos]
        · exact ⟨_, rfl⟩
        · exact inRange_iff.2 fun row hrow n hn hrange => hover (.entry hstrict hm hrow hn hrange)

end Matrix

namespace Directive

theorem exists_label_iff {v : Value} : (∃ t, label v = .ok t) ↔ v.text? ≠ none := by
  unfold label
  cases v.text? <;> simp

variable [Host]

/-- The comment is a directive, and reading its list meets a bound or gives an item that has no
text, since a whole number in it has too many digits. -/
inductive Overtaxes (keyword comment : Text) : Prop
  | list {body : Text} : body? keyword comment = some body →
      Listing.Overtaxes .directive body →
      Overtaxes keyword comment
  | label {body : Text} {items : List Value} {v : Value} : body? keyword comment = some body →
      Listing.bracketed? body .directive = .ok (some items) → v ∈ items → v.text? = none →
      Overtaxes keyword comment

theorem exists_labels?_iff :
    (∃ labels, labels? keyword comment = .ok labels) ↔ ¬Overtaxes keyword comment := by
  unfold labels?
  split
  next hbody =>
    refine iff_of_true ⟨_, rfl⟩ ?_
    rintro (⟨h, -⟩ | ⟨h, -⟩)
    · rw [hbody] at h
      cases h
    · rw [hbody] at h
      cases h
  next body hbody =>
    rw [exists_bind_eq_ok]
    constructor
    · rintro ⟨items?, hitems, hrest⟩ (⟨h, hover⟩ | @⟨body', items, v, h, hitems', hv, hnone⟩)
      · obtain rfl := Option.some.inj (hbody.symm.trans h)
        exact Listing.exists_bracketed?_iff.1 ⟨items?, hitems⟩ hover
      · obtain rfl := Option.some.inj (hbody.symm.trans h)
        obtain rfl := Except.ok.inj (hitems.symm.trans hitems')
        cases items with
        | nil => contradiction
        | cons w items =>
          obtain ⟨ls, hls, -⟩ := exists_bind_eq_ok.1 hrest
          exact exists_label_iff.1 (exists_mapM_eq_ok.1 ⟨ls, hls⟩ v hv) hnone
    · intro hover
      obtain ⟨items?, hitems⟩ := Listing.exists_bracketed?_iff.2 fun h => hover (.list hbody h)
      refine ⟨items?, hitems, ?_⟩
      split
      next => exact ⟨_, rfl⟩
      next => exact ⟨_, rfl⟩
      next items _ =>
        refine exists_bind_eq_ok.2 ?_
        obtain ⟨ls, hls⟩ := exists_mapM_eq_ok.2 fun v hv =>
          exists_label_iff.2 fun hnone => hover (.label hbody hitems hv hnone)
        exact ⟨ls, hls, _, rfl⟩

end Directive

end VariableReport
