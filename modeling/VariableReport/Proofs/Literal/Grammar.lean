import VariableReport.Literal.Grammar
import VariableReport.Proofs.Literal.Moderate

/-!
# Moderate forms

The grammar puts no number into a form that was not a token, so what is parsed from moderate tokens
has moderate values in it (`moderate_form?`). This is a property of parsers (`Keeps`) that their
combinators hand on, and with them each rule from the rules it refers to.
-/

namespace VariableReport.Literal
open Value (Moderate)

variable {α β : Type} {P : α → Prop} {Q : β → Prop} {p : Parser α} {f : Form}

/-- All values in the form are moderate. -/
inductive Form.Moderate : Form → Prop
  | constant {v : Value} : v.Moderate → Moderate (.constant v)
  | setName : Moderate .setName
  | emptySet : Moderate .emptySet
  | plus {f : Form} : Moderate f → Moderate (.plus f)
  | minus {f : Form} : Moderate f → Moderate (.minus f)
  | sum {f g : Form} : Moderate f → Moderate g → Moderate (.sum f g)
  | difference {f g : Form} : Moderate f → Moderate g → Moderate (.difference f g)
  | list {items : List Form} : (∀ f ∈ items, Moderate f) → Moderate (.list items)
  | tuple {items : List Form} : (∀ f ∈ items, Moderate f) → Moderate (.tuple items)
  | set {items : List Form} : (∀ f ∈ items, Moderate f) → Moderate (.set items)
  | dict {entries : List (Form × Form)} : (∀ e ∈ entries, Moderate e.1) →
      (∀ e ∈ entries, Moderate e.2) → Moderate (.dict entries)
  | starred {f : Form} : Moderate f → Moderate (.starred f)
  | other (assignable : Bool) : Moderate (.other assignable)

/-! ### Combinators -/

/-- From moderate tokens the parser answers what has a property, and leaves moderate tokens. -/
def Keeps (P : α → Prop) (p : Parser α) : Prop :=
  ∀ (ts us : List Token) (a : α), (∀ k ∈ ts, k.Moderate) → p ts = some (a, us) →
    P a ∧ ∀ k ∈ us, k.Moderate

namespace Keeps

theorem pure {a : α} (ha : P a) : Keeps P (pure a) := by
  intro ts us b hts h
  cases h
  exact ⟨ha, hts⟩

theorem failure : Keeps P failure := by
  intro ts us a _ h
  cases h

theorem mono {P' : α → Prop} (hp : Keeps P p) (hP : ∀ a, P a → P' a) : Keeps P' p := by
  intro ts us a hts h
  obtain ⟨ha, hus⟩ := hp ts us a hts h
  exact ⟨hP a ha, hus⟩

theorem bind {next : α → Parser β} (hp : Keeps P p) (hnext : ∀ a, P a → Keeps Q (next a)) :
    Keeps Q (p >>= next) := by
  intro ts us b hts h
  obtain ⟨⟨a, vs⟩, ha, hb⟩ := Option.bind_eq_some_iff.1 h
  obtain ⟨hpa, hvs⟩ := hp ts vs a hts ha
  exact hnext a hpa vs us b hvs hb

theorem andThen {q : Parser β} (hp : Keeps P p) (hq : Keeps Q q) : Keeps Q (p >>= fun _ => q) :=
  hp.bind fun _ _ => hq

theorem ite {c : Prop} [Decidable c] {q : Parser α} (hp : Keeps P p) (hq : Keeps P q) :
    Keeps P (if c then p else q) := by
  split
  · exact hp
  · exact hq

theorem choice {c : Parser Bool} {q : Parser α} {D : Bool → Prop} (hc : Keeps D c) (hp : Keeps P p)
    (hq : Keeps P q) : Keeps P (do if ← c then p else q) :=
  hc.bind fun _ _ => hp.ite hq

theorem goOn {next : α → Parser (Option α)}
    (hnext : ∀ a, P a → Keeps (fun b? => ∀ b, b? = some b → P b) (next a)) (counter : List Token)
    {a : α} (ha : P a) : Keeps P (goOn next counter a) := by
  induction counter generalizing a with
  | nil => exact .pure ha
  | cons k counter ih =>
    refine (hnext a ha).bind fun b? hb => ?_
    cases b? with
    | none => exact .pure ha
    | some b => exact ih (hb b rfl)

theorem iterate {next : α → Parser (Option α)}
    (hnext : ∀ a, P a → Keeps (fun b? => ∀ b, b? = some b → P b) (next a)) {a : α} (ha : P a) :
    Keeps P (iterate next a) := fun ts us b hts h => goOn hnext ts ha ts us b hts h

theorem membersFrom {close : Token → Bool} (hskip : Keeps (fun _ => True) (skipIf close))
    (hcomma : Keeps (fun _ => True) (demand (.mark ','))) (hp : Keeps P p) (counter : List Token) :
    Keeps (fun x => ∀ a ∈ x.1, P a) (membersFrom p close counter) := by
  induction counter with
  | nil => exact .failure
  | cons k counter ih =>
    refine .choice hskip (.pure (by simp)) (.andThen hcomma (.choice hskip (.pure (by simp)) ?_))
    refine hp.bind fun a ha => ih.bind fun x hx => ?_
    exact .pure (List.forall_mem_cons.2 ⟨ha, hx⟩)

end Keeps

/-! ### Tokens -/

abbrev Leaves (p : Parser α) : Prop := Keeps (fun _ => True) p

theorem leaves_skipIf (kind : Token → Bool) : Leaves (skipIf kind) := by
  intro ts us b hts h
  refine ⟨trivial, ?_⟩
  unfold skipIf at h
  split at h
  next =>
    split at h
    next =>
      cases h
      exact (List.forall_mem_cons.1 hts).2
    next =>
      cases h
      exact hts
  next =>
    cases h
    exact hts

theorem leaves_skip (s : Sign) : Leaves (skip s) := leaves_skipIf _

theorem leaves_demandIf (kind : Token → Bool) : Leaves (demandIf kind) :=
  .choice (leaves_skipIf kind) (.pure trivial) .failure

theorem leaves_demand (s : Sign) : Leaves (demand s) := leaves_demandIf _

theorem leaves_sees (signs : List Sign) : Leaves (sees signs) := by
  intro ts us b hts h
  cases h
  exact ⟨trivial, hts⟩

theorem leaves_seesNamed (s : Sign) : Leaves (seesNamed s) := by
  intro ts us b hts h
  cases h
  exact ⟨trivial, hts⟩

theorem Keeps.members (hp : Keeps P p) (close : Token → Bool) :
    Keeps (fun x => ∀ a ∈ x.1, P a) (members p close) :=
  fun ts us x hts h => Keeps.membersFrom (leaves_skipIf close) (leaves_demand _) hp ts ts us x hts h

theorem moderate_nameForm (t : Text) : (nameForm t).Moderate := by
  unfold nameForm
  split
  · exact .setName
  · exact .other true

theorem leaves_skipComparison : Leaves skipComparison := by
  refine .choice (leaves_skipIf _) (.pure trivial) (.choice (leaves_skip _) ?_ ?_)
  · exact .andThen (leaves_demand _) (.pure trivial)
  · exact .choice (leaves_skip _) (.andThen (leaves_skip _) (.pure trivial)) (.pure trivial)

/-! ### Rules -/

/-- What the rule is given is moderate. -/
def Rule.Moderate : Rule → Prop
  | .terms f => f.Moderate
  | .trailers f => f.Moderate
  | _ => True

/-- Of texts that stand side by side only the constant ones are kept. -/
theorem keeps_joinText [Host] (rule : Rule → Parser Form) (hf : f.Moderate) :
    Keeps (fun g? => ∀ g, g? = some g → g.Moderate) (joinText rule f) := by
  intro ts us g? hts hjoin
  unfold joinText at hjoin
  split at hjoin
  next =>
    rw [List.forall_mem_cons] at hts
    split at hjoin
    next =>
      cases hjoin
      exact ⟨by rintro _ ⟨⟩; exact .constant (.str _), hts.2⟩
    next =>
      cases hjoin
      exact ⟨by rintro _ ⟨⟩; exact hf, hts.2⟩
    next => cases hjoin
  next =>
    rw [List.forall_mem_cons] at hts
    split at hjoin
    next =>
      cases hjoin
      exact ⟨by rintro _ ⟨⟩; exact .constant (.bytes _), hts.2⟩
    next => cases hjoin
  next =>
    rw [List.forall_mem_cons] at hts
    have hother {g? : Option Form} {ts us : List Token} {parts : List Text}
        (hparts : (if areExpressions rule parts then some (some (Form.other false), ts) else none) =
          some (g?, us)) : g? = some (.other false) ∧ us = ts := by
      split at hparts
      next =>
        cases hparts
        exact ⟨rfl, rfl⟩
      next => cases hparts
    split at hjoin
    next =>
      obtain ⟨rfl, rfl⟩ := hother hjoin
      exact ⟨by rintro _ ⟨⟩; exact .other false, hts.2⟩
    next =>
      obtain ⟨rfl, rfl⟩ := hother hjoin
      exact ⟨by rintro _ ⟨⟩; exact .other false, hts.2⟩
    next => cases hjoin
  next =>
    cases hjoin
    exact ⟨by simp, hts⟩

section
variable {rule : Rule → Parser Form} (h : ∀ r : Rule, r.Moderate → Keeps Form.Moderate (rule r))
include h

theorem keeps_named : Keeps Form.Moderate (named rule) := by
  refine .choice (leaves_seesNamed _) ?_ (h .expression trivial)
  refine .andThen (leaves_demandIf _) (.andThen (leaves_demand _) ?_)
  exact .andThen (h .expression trivial) (.pure (.other false))

theorem keeps_item : Keeps Form.Moderate (item rule) := by
  refine .choice (leaves_skip _) ?_ (keeps_named h)
  exact (h .arithmetic trivial).bind fun f hf => .pure (.starred hf)

theorem leaves_target : Leaves (target rule) := by
  refine .andThen (leaves_skip _) ((h .primary trivial).bind fun f _ => ?_)
  exact .ite (.pure trivial) .failure

theorem leaves_condition : Leaves (condition rule) :=
  .choice (leaves_skip _) (.andThen (h .disjunction trivial) (.pure trivial)) (.pure trivial)

theorem leaves_clauseBody : Leaves (clauseBody rule) := by
  refine .andThen (leaves_target h) (.andThen ((leaves_target h).members _) ?_)
  refine .andThen (h .disjunction trivial) (.iterate (fun _ _ => ?_) trivial)
  exact (leaves_condition h).mono fun _ _ _ _ => trivial

theorem leaves_clause : Leaves (clause rule) := by
  have hbody := leaves_clauseBody h
  refine .choice (leaves_skip _) ?_ (.choice (leaves_skip _) ?_ (.pure trivial))
  · exact .andThen (leaves_demand _) (.andThen hbody (.pure trivial))
  · exact .andThen hbody (.pure trivial)

theorem leaves_clausesIf (allowed : Bool) : Leaves (clausesIf rule allowed) := by
  refine .ite (.pure trivial) (.choice (leaves_clause h) ?_ (.pure trivial))
  refine .andThen (Keeps.iterate (P := fun _ => True) (fun _ _ => ?_) trivial) (.pure trivial)
  exact (leaves_clause h).bind fun b _ => .pure (by simp)

theorem keeps_restOf (close : Char) (f : Form) :
    Keeps (fun rest => ∀ x, rest = some x → ∀ f ∈ x.1, f.Moderate) (restOf rule close f) := by
  refine .choice (leaves_clausesIf h _) (.andThen (leaves_demand _) (.pure (by simp))) ?_
  refine ((keeps_item h).members _).bind fun x hx => .pure ?_
  rintro _ ⟨⟩
  exact hx

theorem keeps_listForm : Keeps Form.Moderate (listForm rule) := by
  refine .choice (leaves_skip _) (.pure (.list (by simp))) ?_
  refine (keeps_item h).bind fun f hf => (keeps_restOf h ']' f).bind fun rest hrest => ?_
  cases rest with
  | none => exact .pure (.other false)
  | some x => exact .pure (.list (List.forall_mem_cons.2 ⟨hf, hrest x rfl⟩))

theorem keeps_yielded : Keeps Form.Moderate (yielded rule) := by
  refine .choice (leaves_skip _) ?_ (h .expression trivial)
  exact (h .arithmetic trivial).bind fun f hf => .pure (.starred hf)

theorem keeps_yieldForm : Keeps Form.Moderate (yieldForm rule) := by
  have hother := Keeps.pure (Form.Moderate.other false)
  refine .choice (leaves_skip _) ?_ (.choice (leaves_skip _) hother ?_)
  · exact .andThen (h .expression trivial) (.andThen (leaves_demand _) hother)
  · exact .andThen (keeps_yielded h) (.andThen ((keeps_yielded h).members _) hother)

theorem keeps_tupleForm : Keeps Form.Moderate (tupleForm rule) := by
  refine .choice (leaves_skip _) (.pure (.tuple (by simp))) ?_
  refine .choice (leaves_skip _) (keeps_yieldForm h) ?_
  refine (keeps_item h).bind fun f hf => (keeps_restOf h ')' f).bind fun rest hrest => ?_
  match rest, hrest with
  | none, _ => exact .pure (.other false)
  | some ([], false), _ => exact .ite .failure (.pure hf)
  | some ([], true), _ => exact .pure (.tuple (by simpa using hf))
  | some (g :: fs, b), hrest => exact .pure (.tuple (List.forall_mem_cons.2 ⟨hf, hrest _ rfl⟩))

theorem keeps_entry :
    Keeps (fun e : Form × Form => e.1.Moderate ∧ e.2.Moderate) (entry rule) := by
  refine .choice (leaves_skip _) ?_ ?_
  · exact (h .arithmetic trivial).bind fun f hf => .pure ⟨.other false, hf⟩
  · refine (h .expression trivial).bind fun k hk => .andThen (leaves_demand _) ?_
    exact (h .expression trivial).bind fun f hf => .pure ⟨hk, hf⟩

theorem keeps_setForm (hf : f.Moderate) : Keeps Form.Moderate (setForm rule f) := by
  refine (keeps_restOf h '\x7d' f).bind fun rest hrest => ?_
  cases rest with
  | none => exact .pure (.other false)
  | some x => exact .pure (.set (List.forall_mem_cons.2 ⟨hf, hrest x rfl⟩))

theorem keeps_dictForm {e : Form × Form} (he : e.1.Moderate ∧ e.2.Moderate) :
    Keeps Form.Moderate (dictForm rule e) := by
  refine ((keeps_entry h).members _).bind fun x hx => .pure (.dict ?_ ?_)
  · exact List.forall_mem_cons.2 ⟨he.1, fun e he => (hx e he).1⟩
  · exact List.forall_mem_cons.2 ⟨he.2, fun e he => (hx e he).2⟩

theorem keeps_braceForm : Keeps Form.Moderate (braceForm rule) := by
  refine .choice (leaves_skip _) (.pure (.dict (by simp) (by simp))) (.choice (leaves_sees _) ?_ ?_)
  · exact (keeps_entry h).bind fun e he => keeps_dictForm h he
  · refine (leaves_sees _).bind fun _ _ => (leaves_seesNamed _).bind fun _ _ => .ite ?_ ?_
    · exact (keeps_item h).bind fun f hf => keeps_setForm h hf
    · refine (h .expression trivial).bind fun k hk => ?_
      refine .choice (leaves_skip _) ?_ (keeps_setForm h hk)
      refine (h .expression trivial).bind fun f hf => ?_
      refine .choice (leaves_clausesIf h true) ?_ (keeps_dictForm h ⟨hk, hf⟩)
      exact .andThen (leaves_demand _) (.pure (.other false))

theorem leaves_argument : Leaves (argument rule) := by
  have hexpression {a : Argument} : Leaves (do let _ ← rule .expression; return a) :=
    .andThen (h .expression trivial) (.pure trivial)
  refine .choice (leaves_skip _) hexpression (.choice (leaves_skip _) hexpression ?_)
  refine .choice (leaves_seesNamed _) ?_ (.andThen (keeps_named h) (.pure trivial))
  exact .andThen (leaves_demandIf _) (.andThen (leaves_demand _) hexpression)

theorem leaves_arguments : Leaves (arguments rule) := by
  refine .choice (leaves_skip _) (.pure trivial) ((leaves_argument h).bind fun a _ => ?_)
  refine .choice (leaves_clausesIf h _) (.andThen (leaves_demand _) (.pure trivial)) ?_
  exact ((leaves_argument h).members _).bind fun _ _ => .ite (.pure trivial) .failure

theorem leaves_bound : Leaves (bound rule) :=
  .choice (leaves_sees _) (.pure trivial) (.andThen (h .expression trivial) (.pure trivial))

theorem leaves_bounds : Leaves (bounds rule) := by
  refine .choice (leaves_skip _) (.andThen (leaves_bound h) ?_) (.pure trivial)
  exact .choice (leaves_skip _) (leaves_bound h) (.pure trivial)

theorem leaves_slice : Leaves (slice rule) := by
  refine .choice (leaves_skip _) (.andThen (h .expression trivial) (.pure trivial)) ?_
  refine .choice (leaves_seesNamed _) (.andThen (keeps_named h) (.pure trivial)) ?_
  have hbounds := leaves_bounds h
  exact .choice (leaves_sees _) hbounds (.andThen (h .expression trivial) hbounds)

theorem keeps_trailersOf (hf : f.Moderate) : Keeps Form.Moderate (trailersOf rule f) := by
  have hother (b : Bool) : Keeps Form.Moderate (rule (.trailers (.other b))) := h _ (.other b)
  refine .choice (leaves_skip _) (.andThen (leaves_demandIf _) (hother true)) ?_
  refine .choice (leaves_skip _) ?_ (.choice (leaves_skip _) ?_ (.pure hf))
  · exact .andThen (leaves_slice h) (.andThen ((leaves_slice h).members _) (hother true))
  · refine (leaves_arguments h).bind fun isEmpty _ => ?_
    cases f with
    | setName =>
      cases isEmpty with
      | true => exact h _ .emptySet
      | false => exact hother false
    | _ => exact hother false

theorem leaves_parameter : Leaves (parameter rule) := by
  refine .choice (leaves_skip _) (.andThen (leaves_demandIf _) (.pure trivial)) ?_
  refine .choice (leaves_skip _) ((leaves_skipIf _).bind fun _ _ => .pure trivial) ?_
  refine .choice (leaves_skip _) (.pure trivial) (.andThen (leaves_demandIf _) ?_)
  refine .choice (leaves_skip _) ?_ (.pure trivial)
  exact .andThen (h .expression trivial) (.pure trivial)

theorem leaves_parameters : Leaves (parameters rule) := by
  refine .choice (leaves_skip _) (.pure trivial) ((leaves_parameter h).bind fun p _ => ?_)
  exact ((leaves_parameter h).members _).bind fun _ _ => .ite (.pure trivial) .failure

theorem keeps_function : Keeps Form.Moderate (function rule) :=
  .andThen (leaves_parameters h) (.andThen (h .expression trivial) (.pure (.other false)))

theorem keeps_atom [Host] : Keeps Form.Moderate (atom rule) := by
  have hiterate {f : Form} (hf : f.Moderate) : Keeps Form.Moderate (iterate (joinText rule) f) :=
    .iterate (fun _ => keeps_joinText rule) hf
  intro ts us f hts hatom
  unfold atom at hatom
  split at hatom
  next =>
    rw [List.forall_mem_cons] at hts
    obtain ⟨⟨hv⟩, hts⟩ := hts
    exact hiterate (.constant hv) _ _ _ hts hatom
  next =>
    rw [List.forall_mem_cons] at hts
    split at hatom
    next => exact hiterate (.other false) _ _ _ hts.2 hatom
    next => cases hatom
  next t _ =>
    cases hatom
    exact ⟨moderate_nameForm t, (List.forall_mem_cons.1 hts).2⟩
  next => exact keeps_tupleForm h _ _ _ (List.forall_mem_cons.1 hts).2 hatom
  next => exact keeps_listForm h _ _ _ (List.forall_mem_cons.1 hts).2 hatom
  next => exact keeps_braceForm h _ _ _ (List.forall_mem_cons.1 hts).2 hatom
  next => cases hatom

theorem keeps_power : Keeps Form.Moderate (power rule) := by
  refine (leaves_skip _).bind fun waits _ => (h .primary trivial).bind fun f hf => ?_
  refine .choice (leaves_skip _) (.andThen (h .factor trivial) (.pure (.other false))) (.pure ?_)
  cases waits with
  | true => exact .other false
  | false => exact hf

theorem keeps_factor : Keeps Form.Moderate (factor rule) := by
  refine .choice (leaves_skip _) ?_ (.choice (leaves_skip _) ?_ (.choice (leaves_skip _) ?_ ?_))
  · exact (h .factor trivial).bind fun f hf => .pure (.plus hf)
  · exact (h .factor trivial).bind fun f hf => .pure (.minus hf)
  · exact .andThen (h .factor trivial) (.pure (.other false))
  · exact keeps_power h

theorem keeps_termsOf (hf : f.Moderate) : Keeps Form.Moderate (termsOf rule f) := by
  refine .choice (leaves_skip _) ?_ (.choice (leaves_skip _) ?_ (.choice (leaves_skipIf _) ?_ ?_))
  · exact (h .factor trivial).bind fun g hg => h (.terms (.sum f g)) (.sum hf hg)
  · exact (h .factor trivial).bind fun g hg => h (.terms (.difference f g)) (.difference hf hg)
  · exact .andThen (h .factor trivial) (h (.terms (.other false)) (.other false))
  · exact .pure hf

theorem keeps_inversion : Keeps Form.Moderate (inversion rule) := by
  refine .choice (leaves_skip _) (.andThen (h .inversion trivial) (.pure (.other false))) ?_
  refine (h .arithmetic trivial).bind fun f hf => .iterate (fun _ _ => ?_) hf
  refine .choice leaves_skipComparison ?_ (.pure (by simp))
  refine .andThen (h .arithmetic trivial) (.pure ?_)
  rintro _ ⟨⟩
  exact .other false

theorem keeps_disjunction : Keeps Form.Moderate (disjunction rule) := by
  refine (h .inversion trivial).bind fun f hf => .iterate (fun _ _ => ?_) hf
  refine .choice (leaves_skipIf _) (.andThen (h .inversion trivial) (.pure ?_)) (.pure (by simp))
  rintro _ ⟨⟩
  exact .other false

theorem keeps_expression : Keeps Form.Moderate (expression rule) := by
  refine .choice (leaves_skip _) (keeps_function h) ((h .disjunction trivial).bind fun f hf => ?_)
  refine .choice (leaves_skip _) (.andThen (h .disjunction trivial) ?_) (.pure hf)
  exact .andThen (leaves_demand _) (.andThen (h .expression trivial) (.pure (.other false)))

theorem keeps_body [Host] (r : Rule) (hr : r.Moderate) : Keeps Form.Moderate (body rule r) := by
  cases r with
  | expression => exact keeps_expression h
  | disjunction => exact keeps_disjunction h
  | inversion => exact keeps_inversion h
  | arithmetic => exact (h .factor trivial).bind fun f hf => keeps_termsOf h hf
  | terms f => exact keeps_termsOf h hr
  | factor => exact keeps_factor h
  | primary => exact (keeps_atom h).bind fun f hf => keeps_trailersOf h hf
  | trailers f => exact keeps_trailersOf h hr

theorem keeps_line : Keeps Form.Moderate (line rule) := by
  refine (h .expression trivial).bind fun f hf => ?_
  refine ((h .expression trivial).members _).bind fun x hx => ?_
  match x, hx with
  | ([], false), _ => exact .pure hf
  | ([], true), _ => exact .pure (.tuple (by simpa using hf))
  | (g :: fs, b), hx => exact .pure (.tuple (List.forall_mem_cons.2 ⟨hf, hx⟩))

end

section
variable [Host] {n : Nat} {ks : List Token}

theorem keeps_parse (n : Nat) (r : Rule) (hr : r.Moderate) : Keeps Form.Moderate (parse n r) := by
  induction n generalizing r with
  | zero => exact .failure
  | succ n ih => exact keeps_body ih r hr

theorem moderate_form? (hks : ∀ k ∈ ks, k.Moderate) (h : form? n ks = some f) : f.Moderate := by
  unfold form? at h
  split at h
  next hline =>
    cases h
    exact (keeps_line (keeps_parse n) _ _ _ hks hline).1
  next => cases h

end

end VariableReport.Literal
