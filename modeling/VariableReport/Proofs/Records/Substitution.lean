import VariableReport.Records.Substitution
import VariableReport.Proofs.Records.Reachability
import VariableReport.Proofs.Source.Layout
import Mathlib.Data.Bool.AllAny

/-!
# Exact substitution

The replaced form of an expression is the expression itself with some names written as the
values of their records (`Written`). A name is written as a value when it is a reference, a
record has this name, and references do not lead from that record back to the record whose
expression this is (`Replaces`); all else is kept where it is. The relation is over the
tokens of code with their positions, so nothing in it depends on offsets into the text, on a
cursor or on a search.
-/

namespace VariableReport
open Source Relation

namespace Text

theorem slice_append (a b : Text) (cursor : Nat) :
    slice (a ++ b) cursor a.length = a.drop cursor := by
  unfold slice
  rw [List.drop_append, List.take_append_of_le_length (by simp), List.take_of_length_le (by simp)]

end Text

namespace Records

/-- The reference of `r` to `a` closes a cycle: references lead from `a` back to `r`. -/
def ClosesCycle (rs : Records) (r a : Record) : Prop := ReflTransGen rs.Refers a.name r.name

/-- An occurrence in the expression of `r` is replaced by the value of `a`. -/
structure Replaces (rs : Records) (r : Record) (o : Occurrence) (a : Record) : Prop where
  isReference : o.IsReference
  mem : a ∈ rs.toList
  named : a.name = o.token.text
  noCycle : ¬rs.ClosesCycle r a

/-- A text, which starts at a position, and the text with the values of records in the places
of the occurrences that are replaced. -/
inductive Written (rs : Records) (r : Record) : Position → List Occurrence → Text → Text → Prop
  | done (p : Position) (t : Text) : Written rs r p [] t t
  | value {p : Position} {gap t u : Text} {o : Occurrence} {os : List Occurrence} {a : Record} :
      o.token.start = p.advance gap → rs.Replaces r o a →
      Written rs r (o.token.start.advance o.token.text) os t u →
      Written rs r p (o :: os) (gap ++ (o.token.text ++ t)) (gap ++ (a.value ++ u))
  | kept {p : Position} {gap t u : Text} {o : Occurrence} {os : List Occurrence} :
      o.token.start = p.advance gap → (∀ a, ¬rs.Replaces r o a) →
      Written rs r (o.token.start.advance o.token.text) os t u →
      Written rs r p (o :: os) (gap ++ (o.token.text ++ t)) (gap ++ (o.token.text ++ u))

variable {rs : Records} {r a b : Record} {o : Occurrence} {os : List Occurrence}
  {p : Position} {t u v : Text}

theorem Replaces.unique (ha : rs.Replaces r o a) (hb : rs.Replaces r o b) : a = b := by
  have h1 := get?_eq_some_iff.2 ⟨ha.mem, ha.named⟩
  have h2 := get?_eq_some_iff.2 ⟨hb.mem, hb.named⟩
  exact Option.some.inj (h1.symm.trans h2)

theorem Written.unique (hu : Written rs r p os t u) (hv : Written rs r p os t v) : u = v := by
  induction hu generalizing v with
  | done => cases hv; rfl
  | @value p gap t u o os a hstart ha _ ih =>
    generalize ht : gap ++ (o.token.text ++ t) = w at hv
    cases hv with
    | @value _ gap' t' u' _ _ a' hstart' ha' h' =>
      obtain ⟨rfl, hrest⟩ := Position.advance_cancel ht (hstart.symm.trans hstart')
      obtain rfl := List.append_cancel_left hrest
      rw [ha.unique ha', ih h']
    | kept _ hno => exact absurd ha (hno a)
  | @kept p gap t u o os hstart hno _ ih =>
    generalize ht : gap ++ (o.token.text ++ t) = w at hv
    cases hv with
    | value _ ha => exact absurd ha (hno _)
    | @kept _ gap' t' u' _ _ hstart' _ h' =>
      obtain ⟨rfl, hrest⟩ := Position.advance_cancel ht (hstart.symm.trans hstart')
      obtain rfl := List.append_cancel_left hrest
      rw [ih h']

/-- What stands for a name is the value of its record, if no cycle is closed. -/
theorem standIn?_eq_some_iff : rs.standIn? rs.graph r u = some v ↔
    ∃ a, a ∈ rs.toList ∧ a.name = u ∧ ¬rs.ClosesCycle r a ∧ a.value = v := by
  unfold standIn?
  cases ha : rs.get? u with
  | none =>
    refine iff_of_false (by simp) ?_
    rintro ⟨a, hm, hname, -⟩
    rw [get?_eq_some_iff.2 ⟨hm, hname⟩] at ha
    contradiction
  | some a =>
    obtain ⟨hm, rfl⟩ := get?_eq_some_iff.1 ha
    have hreach : rs.graph.reaches a.name r.name = true ↔ rs.ClosesCycle r a := reaches_graph_iff
    dsimp only
    by_cases hc : rs.ClosesCycle r a
    · rw [if_pos (hreach.2 hc)]
      refine iff_of_false (by simp) ?_
      rintro ⟨b, hb, hname, hno, -⟩
      have := get?_eq_some_iff.2 ⟨hb, hname⟩
      rw [ha] at this
      exact hno (Option.some.inj this ▸ hc)
    · rw [if_neg (mt hreach.1 hc)]
      constructor
      · exact fun h => ⟨a, hm, rfl, hc, Option.some.inj h⟩
      · rintro ⟨b, hb, hname, -, rfl⟩
        have := get?_eq_some_iff.2 ⟨hb, hname⟩
        rw [ha] at this
        rw [Option.some.inj this]

/-- From a token on, with `cursor` not beyond it, the text up to the token is copied and the rest
is written. -/
theorem written_replaceFrom {rest pre : Text} {ts : List Token} {cursor : Nat}
    (hb : ∀ c ∈ t, Text.isLineBreak c = true → c = '\n') (h : Laid p rest ts)
    (before : Option Token) (ht : t = pre ++ rest) (hp : p = (⟨1, 0⟩ : Position).advance pre)
    (hc : cursor ≤ pre.length) :
    ∃ w, replaceFrom (rs.standIn? rs.graph r) t cursor (referencesIn t before ts) =
        pre.drop cursor ++ w ∧ Written rs r p (occurrences before ts) rest w := by
  induction h generalizing before pre cursor with
  | done p rest =>
    refine ⟨rest, ?_, .done p rest⟩
    rw [referencesIn, replaceFrom, ht, List.drop_append_of_le_length hc]
  | @token p gap rest tok ts hstart hstop _ ih =>
    have hgap : t = (pre ++ gap) ++ (tok.text ++ rest) := by rw [ht, List.append_assoc]
    have htext : t = ((pre ++ gap) ++ tok.text) ++ rest := by simp [ht]
    have hfrom : tok.start = (⟨1, 0⟩ : Position).advance (pre ++ gap) := by
      rw [Position.advance_append, ← hp, hstart]
    have hto : tok.start.advance tok.text =
        (⟨1, 0⟩ : Position).advance ((pre ++ gap) ++ tok.text) := by
      rw [Position.advance_append, hfrom]
    have hlen : cursor ≤ (pre ++ gap).length ∧ cursor ≤ ((pre ++ gap) ++ tok.text).length := by
      simp only [List.length_append]
      omega
    -- Where nothing is replaced the token is copied with the text before it.
    have hkept (hno : ∀ a, ¬rs.Replaces r ⟨before, tok, ts.head?⟩ a)
        (hcopy : replaceFrom (rs.standIn? rs.graph r) t cursor (referencesIn t before (tok :: ts)) =
          replaceFrom (rs.standIn? rs.graph r) t cursor (referencesIn t (some tok) ts)) :
        ∃ w, replaceFrom (rs.standIn? rs.graph r) t cursor (referencesIn t before (tok :: ts)) =
          pre.drop cursor ++ w ∧
          Written rs r p (occurrences before (tok :: ts)) (gap ++ (tok.text ++ rest)) w := by
      obtain ⟨w, hw, hwritten⟩ := ih (some tok) htext hto hlen.2
      refine ⟨gap ++ (tok.text ++ w), ?_, .kept hstart hno hwritten⟩
      rw [hcopy, hw, List.drop_append_of_le_length hlen.1, List.drop_append_of_le_length hc]
      simp
    rcases @referencesIn_cons t before ts tok with ⟨hrefs, hno⟩ | ⟨hrefs, href⟩
    · exact hkept (fun a ha => hno ha.isReference) (by rw [hrefs])
    · cases hvalue : rs.standIn? rs.graph r tok.text with
      | none =>
        refine hkept (fun a ha => ?_) (by rw [hrefs, replaceFrom, hvalue])
        have := standIn?_eq_some_iff.2 ⟨a, ha.mem, ha.named, ha.noCycle, rfl⟩
        rw [hvalue] at this
        contradiction
      | some value =>
        obtain ⟨a, hm, hname, hcycle, rfl⟩ := standIn?_eq_some_iff.1 hvalue
        have hkind : tok.kind ≠ .stray := by
          intro h
          have := href.isName
          rw [h] at this
          contradiction
        obtain ⟨hstartOffset, hstopOffset⟩ := offset_piece (pre ++ gap) tok.text rest (hgap ▸ hb)
        rw [← hgap, ← hfrom] at hstartOffset hstopOffset
        rw [← hstop hkind] at hstopOffset
        obtain ⟨w, hw, hwritten⟩ := ih (some tok) htext hto (Nat.le_refl _)
        refine ⟨gap ++ (a.value ++ w), ?_, .value hstart ⟨href, hm, hname, hcycle⟩ hwritten⟩
        have hslice : Text.slice t cursor (pre ++ gap).length = pre.drop cursor ++ gap := by
          rw [hgap, Text.slice_append, List.drop_append_of_le_length hc]
        rw [List.drop_length, List.nil_append] at hw
        rw [hrefs, replaceFrom]
        dsimp only
        rw [hvalue, hstartOffset, hstopOffset, hslice, hw]
        simp

/-- Substitution is exact: the replaced form of an expression that has tokens is the one text in
which the occurrences that are replaced are written as values and all else is kept. -/
theorem substitution_exact {ts : List Token} (he : r.expression = some t)
    (ht : tokens? t = some ts) (hb : ∀ c ∈ t, Text.isLineBreak c = true → c = '\n') :
    ∃ u, rs.substitute? r = some u ∧
      ∀ v, Written rs r ⟨1, 0⟩ (occurrences none (ts.filter isCode)) t v ↔ v = u := by
  have hlaid : Laid ⟨1, 0⟩ t (ts.filter isCode) := by
    have hcode : (visible ts).filter isCode = ts.filter isCode := by
      unfold visible
      rw [List.filter_filter]
      congr 1
      funext tok
      cases hl : tok.isLayout <;> simp [isCode, hl]
    rw [← hcode]
    exact (laid_of_tokens? ht).filter isCode
  obtain ⟨w, hw, hwritten⟩ :=
    @written_replaceFrom rs r _ t t [] _ 0 hb hlaid none rfl rfl (Nat.le_refl _)
  refine ⟨w, ?_, fun v => ⟨fun hv => hv.unique hwritten, fun hv => hv ▸ hwritten⟩⟩
  have hrefs : references? t = some (referencesIn t none (ts.filter isCode)) := by
    rw [references?, ht]
    rfl
  rw [substitute?, substituteBy?, he, Option.map_some, hrefs]
  exact congrArg some hw

/-- Three variables, of which the first two are defined by each other. -/
def mutualRecords : Records := ofList
  [{ name := "a".toList, value := "1".toList, type := "int".toList,
     expression := some "(b + c.b # c\n + f(c=c))".toList },
   { name := "b".toList, value := "2".toList, type := "int".toList,
     expression := some "a".toList },
   { name := "c".toList, value := "3".toList, type := "int".toList }]

/-- The second variable leads back to the first one, and the third one leads nowhere. -/
theorem mutualRecords_reaches :
    mutualRecords.graph.reaches "b".toList "a".toList = true ∧
      mutualRecords.graph.reaches "c".toList "a".toList = false := by
  have hgraph : mutualRecords.graph = [("a".toList, ["b".toList, "c".toList, "c".toList]),
      ("b".toList, ["a".toList]), ("c".toList, [])] := by decide +kernel
  rw [hgraph]
  unfold Graph.reaches
  constructor
  · rw [Graph.search, if_neg (by decide), if_neg (by decide)]
    change Graph.search _ _ _ ["a".toList] = true
    rw [Graph.search, if_pos rfl]
  · rw [Graph.search, if_neg (by decide), if_neg (by decide)]
    change Graph.search _ _ _ [] = false
    rw [Graph.search]

theorem mutualRecords_standIn? (hr : r.name = "a".toList) :
    mutualRecords.standIn? mutualRecords.graph r "b".toList = none ∧
      mutualRecords.standIn? mutualRecords.graph r "c".toList = some "3".toList ∧
      mutualRecords.standIn? mutualRecords.graph r "f".toList = none := by
  obtain ⟨hb, hc⟩ := mutualRecords_reaches
  rw [← hr] at hb hc
  refine ⟨?_, ?_, ?_⟩
  · have hget : (mutualRecords.get? "b".toList).isSome = true := by decide +kernel
    obtain ⟨b, hget⟩ := Option.isSome_iff_exists.1 hget
    rw [standIn?, hget]
    exact if_pos hb
  · have hget : (mutualRecords.get? "c".toList).map Record.value = some "3".toList := by
      decide +kernel
    obtain ⟨c, hget, hvalue⟩ := Option.map_eq_some_iff.1 hget
    rw [standIn?, hget, ← hvalue]
    exact if_neg (Bool.eq_false_iff.1 hc)
  · have hget : mutualRecords.get? "f".toList = none := by decide +kernel
    rw [standIn?, hget]

theorem substitution_exact_mutual : ∃ r ts, mutualRecords.get? "a".toList = some r ∧
    tokens? "(b + c.b # c\n + f(c=c))".toList = some ts ∧
    mutualRecords.substitute? r = some "(b + 3.b # c\n + f(c=3))".toList ∧
    Written mutualRecords r ⟨1, 0⟩ (occurrences none (ts.filter isCode))
      "(b + c.b # c\n + f(c=c))".toList "(b + 3.b # c\n + f(c=3))".toList := by
  have hlex : (tokens? "(b + c.b # c\n + f(c=c))".toList).isSome = true := by decide +kernel
  obtain ⟨ts, hts⟩ := Option.isSome_iff_exists.1 hlex
  let r : Record := mutualRecords.toList.head (by decide)
  have hr : mutualRecords.get? "a".toList = some r := by decide +kernel
  have hvalue : mutualRecords.substitute? r = some "(b + 3.b # c\n + f(c=3))".toList := by
    obtain ⟨hb, hc, hf⟩ := mutualRecords_standIn? (r := r) rfl
    have hrefs : references? "(b + c.b # c\n + f(c=c))".toList = some [⟨"b".toList, 1, 2⟩,
        ⟨"c".toList, 5, 6⟩, ⟨"f".toList, 16, 17⟩, ⟨"c".toList, 20, 21⟩] := by decide +kernel
    have hexpression : r.expression = some "(b + c.b # c\n + f(c=c))".toList := rfl
    rw [substitute?, substituteBy?, hexpression, Option.map_some, hrefs]
    simp only [replaceFrom, hb, hc, hf]
    decide
  obtain ⟨u, hu, hwritten⟩ := @substitution_exact mutualRecords r _ ts rfl hts
    (List.all_iff_forall_prop.1 (by decide +kernel))
  refine ⟨r, ts, hr, hts, hvalue, (hwritten _).2 ?_⟩
  exact Option.some.inj (hvalue.symm.trans hu)

end Records

end VariableReport
