import VariableReport.Literal
import VariableReport.Proofs.Literal.Grammar
import VariableReport.Proofs.Text.Lines

/-!
# Literals in range

A sum of a moderate number and an imaginary one is in range. So a text with short runs, of which the
form is moderate, has a moderate value, or it is no literal (`answers_read`).
-/

namespace VariableReport.Literal
open Value (Moderate)

variable {f g : Form} {v w : Value} {fs : List Form}

/-! ### Values -/

/-- An answer of a kind, or that there is no literal. -/
inductive Answers {α : Type} (P : α → Prop) : Except Fault α → Prop
  | ok {a : α} : P a → Answers P (.ok a)
  | noLiteral : Answers P (.error .noLiteral)

section
variable {α β : Type} {P : α → Prop} {Q : β → Prop} {x : Except Fault α}

theorem Answers.bind (hx : Answers P x) {h : α → Except Fault β}
    (hh : ∀ a, P a → Answers Q (h a)) : Answers Q (x >>= h) := by
  cases hx with
  | ok ha => exact hh _ ha
  | noLiteral => exact .noLiteral

theorem Answers.map (hx : Answers P x) {h : α → β} (hh : ∀ a, P a → Q (h a)) :
    Answers Q (x.map h) := by
  cases hx with
  | ok ha => exact .ok (hh _ ha)
  | noLiteral => exact .noLiteral

end

theorem answers_require {x : Option Value} (h : ∀ v, x = some v → Moderate v) :
    Answers Moderate (require x) := by
  cases x with
  | none => exact .noLiteral
  | some v => exact .ok (h v rfl)

theorem Form.Moderate.number? (h : f.Moderate) (hv : f.number? = some v) : v.Moderate := by
  unfold Form.number? at hv
  split at hv
  next =>
    cases hv
    cases h with
    | constant hn => exact hn
  next =>
    cases hv
    exact .float _
  next =>
    cases hv
    exact .complex _ _
  next => cases hv

theorem moderate_negate (h : Moderate v) : Moderate (negate v) := by
  cases h with
  | int hn => exact .int (by rwa [Int.natAbs_neg])
  | float d => exact .float d.neg
  | complex re im => exact .complex re.neg im.neg
  | none => exact .none
  | ellipsis => exact .ellipsis
  | bool b => exact .bool b
  | str t => exact .str t
  | bytes b => exact .bytes b
  | list hvs => exact .list hvs
  | tuple hvs => exact .tuple hvs
  | dict hkeys hvs => exact .dict hkeys hvs
  | set hvs => exact .set hvs

theorem Form.Moderate.signed? (h : f.Moderate) (hv : f.signed? = some v) : v.Moderate := by
  unfold Form.signed? at hv
  split at hv
  next =>
    cases h with
    | plus hf => exact hf.number? hv
  next =>
    obtain ⟨w, hw, rfl⟩ := Option.map_eq_some_iff.1 hv
    cases h with
    | minus hf => exact moderate_negate (hf.number? hw)
  next => exact h.number? hv

theorem answers_realPart (h : Moderate v) : Answers (fun _ => True) (realPart v) := by
  unfold realPart
  split
  next n =>
    cases h with
    | int hn =>
      split
      next => exact .ok trivial
      next hnone => exact absurd hnone (Double.ofInt?_ne_none hn)
  next => exact .ok trivial
  next => exact .noLiteral

theorem answers_addComplex (h : Moderate v) : Answers Moderate (addComplex v w) := by
  unfold addComplex
  split
  next => exact (answers_realPart h).map fun _ _ => .complex _ _
  next => exact .noLiteral

theorem answers_subComplex (h : Moderate v) : Answers Moderate (subComplex v w) := by
  unfold subComplex
  split
  next => exact (answers_realPart h).map fun _ _ => .complex _ _
  next => exact .noLiteral

theorem answers_values (h : ∀ f ∈ fs, Answers Moderate f.value) :
    Answers (fun vs => ∀ v ∈ vs, Moderate v) (Form.values fs) := by
  induction fs with
  | nil => exact .ok (by simp)
  | cons f fs ih =>
    rw [List.forall_mem_cons] at h
    rw [Form.values]
    exact h.1.bind fun v hv => (ih h.2).bind fun vs hvs => .ok (List.forall_mem_cons.2 ⟨hv, hvs⟩)

theorem answers_keys (h : ∀ f ∈ fs, Answers Moderate f.value) :
    Answers (fun vs => ∀ v ∈ vs, Moderate v) (Form.keys fs) := by
  induction fs with
  | nil => exact .ok (by simp)
  | cons f fs ih =>
    rw [List.forall_mem_cons] at h
    rw [Form.keys]
    refine h.1.bind fun v hv => ?_
    split
    next => exact (ih h.2).bind fun vs hvs => .ok (List.forall_mem_cons.2 ⟨hv, hvs⟩)
    next => exact .noLiteral

theorem answers_entries {es : List (Form × Form)} (hkeys : ∀ e ∈ es, Answers Moderate e.1.value)
    (h : ∀ e ∈ es, Answers Moderate e.2.value) :
    Answers (fun es => (∀ e ∈ es, Moderate e.1) ∧ ∀ e ∈ es, Moderate e.2) (Form.entries es) := by
  induction es with
  | nil => exact .ok (by simp)
  | cons e es ih =>
    obtain ⟨k, f⟩ := e
    rw [List.forall_mem_cons] at hkeys h
    rw [Form.entries]
    refine hkeys.1.bind fun k hk => h.1.bind fun v hv => ?_
    split
    next =>
      refine (ih hkeys.2 h.2).bind fun es hes => .ok ?_
      exact ⟨List.forall_mem_cons.2 ⟨hk, hes.1⟩, List.forall_mem_cons.2 ⟨hv, hes.2⟩⟩
    next => exact .noLiteral

theorem Form.Moderate.value (h : f.Moderate) : Answers Value.Moderate f.value := by
  induction h with
  | constant hv => exact .ok hv
  | setName => exact .noLiteral
  | starred _ _ => exact .noLiteral
  | other _ => exact .noLiteral
  | emptySet => exact .ok (.set (by simp))
  | plus hf _ => exact answers_require fun v hv => (Form.Moderate.plus hf).signed? hv
  | minus hf _ => exact answers_require fun v hv => (Form.Moderate.minus hf).signed? hv
  | sum hf hg _ _ =>
    rw [Form.value]
    refine (answers_require fun v hv => hf.signed? hv).bind fun v hv => ?_
    exact (answers_require fun w hw => hg.number? hw).bind fun w _ => answers_addComplex hv
  | difference hf hg _ _ =>
    rw [Form.value]
    refine (answers_require fun v hv => hf.signed? hv).bind fun v hv => ?_
    exact (answers_require fun w hw => hg.number? hw).bind fun w _ => answers_subComplex hv
  | list _ ih =>
    rw [Form.value]
    exact (answers_values ih).map fun vs hvs => .list hvs
  | tuple _ ih =>
    rw [Form.value]
    exact (answers_values ih).map fun vs hvs => .tuple hvs
  | set _ ih =>
    rw [Form.value]
    exact (answers_keys ih).map fun vs hvs => Value.moderate_setOf hvs
  | dict _ _ ihkeys ih =>
    rw [Form.value]
    exact (answers_entries ihkeys ih).map fun es hes => Value.moderate_dictOf hes.1 hes.2

/-! ### Texts -/

theorem shortRuns_unifyLineEnds {t : Text} (ht : Text.ShortRuns t) :
    Text.ShortRuns (Text.unifyLineEnds t) := by
  intro c u hu hc hchars
  have hfeed : Text.isRunChar '\n' = false := rfl
  refine ht c u (Text.infix_of_infix_unifyLineEnds ?_ hu) hc hchars
  rw [List.mem_cons, not_or]
  constructor
  · rintro rfl
    contradiction
  · intro hmem
    rw [hchars _ hmem] at hfeed
    contradiction

/-- A text with short runs is a moderate literal, or it is none. -/
theorem answers_read [Host] {t : Text} (ht : Text.ShortRuns t) (site : Site) :
    Answers Moderate (read t site) := by
  unfold read
  split
  next f hf =>
    obtain ⟨ks, hks, hform⟩ := Option.bind_eq_some_iff.1 hf
    exact (moderate_form? (moderate_tokens? (shortRuns_unifyLineEnds ht) hks) hform).value
  next => exact .noLiteral

end VariableReport.Literal
