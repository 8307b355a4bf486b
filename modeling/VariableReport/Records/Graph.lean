import VariableReport.Records
import VariableReport.Source.Reference

/-!
# References between records

The graph of a collection gives for every record the names of the records that its
expression refers to. A name reaches another when there is a chain of references between
them; every name reaches itself.
-/

namespace VariableReport

/-- Names with the names they refer to. A name that is not listed refers to nothing. -/
abbrev Graph := List (Text × List Text)

namespace Graph

def successors (g : Graph) (name : Text) : List Text := (g.lookup name).getD []

/-- The listed names that have not been seen. -/
def unseen (g : Graph) (seen : List Text) : Nat := g.countP fun (name, _) => name ∉ seen

theorem unseen_cons_le (g : Graph) (seen : List Text) (name : Text) :
    g.unseen (name :: seen) ≤ g.unseen seen := by
  apply List.countP_mono_left
  intro e _ h
  simp_all

theorem unseen_cons_lt {g : Graph} {seen : List Text} {name : Text}
    (hs : name ∉ seen) (hg : g.successors name ≠ []) :
    g.unseen (name :: seen) < g.unseen seen := by
  induction g with
  | nil => simp [successors] at hg
  | cons e es ih =>
    obtain ⟨k, refs⟩ := e
    have hcons : ∀ xs,
        unseen ((k, refs) :: es) xs = unseen es xs + if k ∈ xs then 0 else 1 := by
      intro xs
      by_cases hk : k ∈ xs <;> simp [unseen, hk]
    rw [hcons, hcons]
    by_cases hk : name = k
    · subst hk
      have := unseen_cons_le es seen name
      simp only [List.mem_cons_self, if_true, hs, if_false]
      omega
    · have hg' : successors es name ≠ [] := by
        simpa [successors, List.lookup_cons, beq_false_of_ne hk] using hg
      have := ih hg'
      simp only [List.mem_cons, Ne.symm hk, false_or]
      omega

/-- Look for `target` among the names on the stack and what they reach, without passing
through a name that was seen. -/
def search (g : Graph) (target : Text) (seen : List Text) : List Text → Bool
  | [] => false
  | name :: stack =>
    if name = target then true
    else if name ∈ seen then search g target seen stack
    else search g target (name :: seen) (g.successors name ++ stack)
  termination_by stack => (g.unseen seen, stack.length)
  decreasing_by
    · exact Prod.Lex.right _ (by simp)
    · rename_i hs
      rcases hg : g.successors name with _ | ⟨first, others⟩
      · rcases Nat.lt_or_eq_of_le (unseen_cons_le g seen name) with h | h
        · exact Prod.Lex.left _ _ h
        · rw [h]
          exact Prod.Lex.right _ (by simp)
      · exact Prod.Lex.left _ _ (unseen_cons_lt hs (by simp [hg]))

/-- Whether there is a chain of references from `start` to `target`. -/
def reaches (g : Graph) (start target : Text) : Bool := g.search target [] [start]

end Graph

namespace Records

/-- The names of records that a text refers to. -/
def namesIn (rs : Records) (t : Text) : List Text :=
  (((Source.references? t).getD []).map fun r => r.name).filter rs.contains

/-- The names that a record refers to. -/
def referredBy (rs : Records) (r : Record) : List Text :=
  match r.expression with
  | some t => rs.namesIn t
  | none => []

def graph (rs : Records) : Graph := rs.toList.map fun r => (r.name, rs.referredBy r)

end Records

end VariableReport
