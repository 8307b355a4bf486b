import VariableReport.Proofs.Records.Search
import VariableReport.Proofs.Source.Reference

/-!
# Reachability

References between records are stated by the tokens of their expressions (`Records.Refers`),
and the graph of a collection has these references for its edges. The search of the graph
therefore answers whether such references lead from one record to another (`reaches_graph_iff`).
-/

namespace VariableReport
open Relation

namespace Records
open Source

variable {rs rs' : Records} {a b : Text}

/-- The expression of a record of the first name mentions a record of the second. -/
def Refers (rs : Records) (a b : Text) : Prop :=
  ∃ r t, rs.get? a = some r ∧ r.expression = some t ∧ Mentions t b ∧ rs.contains b = true

theorem lookup_names {α : Type} (f : Record → α) (records : List Record) (a : Text) :
    (records.map fun r => (r.name, f r)).lookup a =
      (records.find? fun r => r.name = a).map f := by
  induction records with
  | nil => rfl
  | cons r records ih =>
    rw [List.map_cons, List.lookup_cons, List.find?_cons, ih]
    by_cases h : r.name = a
    · simp [h]
    · simp [h, beq_false_of_ne (Ne.symm h)]

theorem mem_namesIn {t : Text} : b ∈ rs.namesIn t ↔ Mentions t b ∧ rs.contains b = true := by
  unfold namesIn
  rw [List.mem_filter, mentions_iff]
  refine and_congr_left fun _ => ?_
  cases references? t <;> simp

/-- The graph of a collection has the references between its records for edges. -/
theorem edge_graph_iff : rs.graph.Edge a b ↔ rs.Refers a b := by
  unfold Graph.Edge Graph.successors graph Refers
  rw [lookup_names]
  change b ∈ ((rs.get? a).map rs.referredBy).getD [] ↔ _
  cases rs.get? a with
  | none => simp
  | some r =>
    unfold referredBy
    cases h : r.expression with
    | none => simp [h]
    | some t => simp [h, mem_namesIn]

theorem reaches_graph_iff : rs.graph.reaches a b = true ↔ ReflTransGen rs.Refers a b := by
  have hedge : rs.graph.Edge = rs.Refers := by
    funext a b
    exact propext edge_graph_iff
  rw [Graph.reaches_iff, hedge]

theorem Refers.congr (hab : rs.Refers a b) (h : ∀ name, (rs.get? name).map Record.expression =
    (rs'.get? name).map Record.expression) : rs'.Refers a b := by
  obtain ⟨r, t, hr, ht, hmentions, hb⟩ := hab
  obtain ⟨r', hr', ht'⟩ := Option.map_eq_some_iff.1
    ((h a).symm.trans (Option.map_eq_some_iff.2 ⟨r, hr, ht⟩))
  refine ⟨r', t, hr', ht', hmentions, ?_⟩
  have hcontains := congrArg Option.isSome (h b)
  rwa [Option.isSome_map, Option.isSome_map, ← contains, hb, eq_comm] at hcontains

/-- Collections with the same expressions have the same references. -/
theorem refers_congr (h : ∀ name, (rs.get? name).map Record.expression =
    (rs'.get? name).map Record.expression) : rs.Refers = rs'.Refers := by
  funext a b
  exact propext ⟨fun hab => hab.congr h, fun hab => hab.congr fun name => (h name).symm⟩

end Records

end VariableReport
