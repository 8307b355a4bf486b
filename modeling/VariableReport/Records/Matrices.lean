import VariableReport.Matrix
import VariableReport.Records

/-!
# Matrices among records

A record whose value is a matrix takes the formula of the matrix. Records are dealt with
in order; when the value of one cannot be dealt with, the records before it keep what
they have taken and the others stay as they are.
-/

namespace VariableReport.Records

variable [Host] [Matrix.Arrays]

/-- The record with the formula of its value, if the value is a matrix. -/
def classify (r : Record) : Except Failure Record := do
  match ← Matrix.latex? r.value with
  | some latex => .ok { r with latexValue := some latex }
  | none => .ok r

theorem name_classify {r s : Record} (h : classify r = .ok s) : s.name = r.name := by
  unfold classify at h
  cases hm : Matrix.latex? r.value with
  | error e => simp [hm, bind, Except.bind] at h
  | ok m =>
    cases m <;> simp [hm, bind, Except.bind] at h <;> subst h <;> rfl

/-- The records as far as they can be dealt with, and the failure that stopped them. -/
def classifyAll : List Record → List Record × Option Failure
  | [] => ([], none)
  | r :: rest =>
    match classify r with
    | .error e => (r :: rest, some e)
    | .ok s =>
      let (done, failure) := classifyAll rest
      (s :: done, failure)

theorem names_classifyAll (records : List Record) :
    (classifyAll records).1.map Record.name = records.map Record.name := by
  induction records with
  | nil => rfl
  | cons r rest ih =>
    rw [classifyAll]
    split
    · rfl
    next h => simp [name_classify h, ih]

/-- Attach the matrices as far as it goes, and say what stopped it. -/
def attachMatricesPartly (rs : Records) : Records × Option Failure :=
  (⟨(classifyAll rs.toList).1, by rw [names_classifyAll]; exact rs.distinct⟩,
    (classifyAll rs.toList).2)

def attachMatrices (rs : Records) : Except Failure Records :=
  match rs.attachMatricesPartly with
  | (done, none) => .ok done
  | (_, some e) => .error e

end VariableReport.Records
