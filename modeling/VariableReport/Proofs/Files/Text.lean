import VariableReport.Files
import VariableReport.Proofs.Outcome

/-!
# The text of a file

Reading a text file is reading the file and decoding what it holds, and each of the two steps fails
in its own way. A run that loads a file ends with a result or a failure of its own unless the
content of the file derails it (`ends_iff_of_read`).
-/

namespace VariableReport.Files
open Outcome

variable {fs : Files} {p : Path} {content : Utf8.Bytes} {t : Text}

/-- The text that the content of a file stands for. -/
def textOf (content : Utf8.Bytes) : Except Utf8.Fault Text :=
  (Utf8.decode content).map Text.unifyLineEnds

theorem readText_of_unread {e : Fault} (h : fs.read p = .error e) :
    fs.readText p = .error (.file e) := by
  rw [readText, h]
  rfl

theorem readText_of_read (h : fs.read p = .ok content) :
    fs.readText p = (textOf content).mapError .utf8 := by
  rw [readText, h, textOf]
  change ((Utf8.decode content).mapError Failure.utf8 >>= fun u => .ok (Text.unifyLineEnds u)) = _
  cases Utf8.decode content with
  | error f => rfl
  | ok u => rfl

/-- A run that loads a file ends well exactly when there is no file or its content does not derail
the run, provided that a run is orderly when it ends well and is not when it is derailed. -/
theorem ends_iff_of_read {α : Type} {x : Except Failure α} {E : Failure → Prop} {P : α → Prop}
    {Derails : Utf8.Bytes → Prop} (hE : ∀ e, E e → e.isOrderly = true)
    (hunread : ∀ f, fs.read p = .error f → Ends E P x)
    (hread : ∀ content, fs.read p = .ok content → Ends E P x ∨ Derails content)
    (hderailed : ∀ content, fs.read p = .ok content → Derails content →
      ∃ e, x = .error e ∧ e.isOrderly = false) :
    (Ends E P x ↔ ∀ content, fs.read p = .ok content → ¬Derails content) ∧
      ∀ e, x = .error e → (e.isOrderly = true ↔ E e) := by
  have hends : Ends E P x ∨ ∃ content, fs.read p = .ok content ∧ Derails content := by
    cases h : fs.read p with
    | error f => exact .inl (hunread f h)
    | ok content => exact (hread content h).imp_right fun hd => ⟨content, rfl, hd⟩
  obtain ⟨hiff, horderly⟩ :=
    ends_iff_not_derailed hends hE fun ⟨content, h, hd⟩ => hderailed content h hd
  refine ⟨?_, horderly⟩
  simpa only [not_exists, not_and] using hiff

/-- The files of a working directory that holds one file only. -/
def alone (name : Text) (content : Utf8.Bytes) : Files := ⟨[([name], .file content)]⟩

theorem read_alone {name : Text} (h : isAnchor [name] = false) :
    (alone name content).read ⟨[], [name]⟩ = .ok content := by
  have habove : name ≠ above := by
    rintro rfl
    contradiction
  have hstart : (alone name content).node? [] = some .directory := rfl
  have hfile : (alone name content).node? [name] = some (.file content) := by
    simp [node?, h, alone]
  have hnext : next [] name = [name] := by simp [next, habove]
  have hfind : (alone name content).find ⟨[], [name]⟩ = .ok ([name], .file content) := by
    change (alone name content).walk [] [name] = _
    simp [walk, hstart, hnext, hfile]
  rw [read, hfind]

end VariableReport.Files
