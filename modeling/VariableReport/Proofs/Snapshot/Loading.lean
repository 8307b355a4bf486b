import VariableReport.Snapshot
import VariableReport.Proofs.Files.Text
import VariableReport.Proofs.Listing.Moderate
import VariableReport.Proofs.Notebook.Framing
import VariableReport.Standard

/-!
# What loading a snapshot ends with

Loading ends with a snapshot or with a failure that says of the file, by its path, why it holds
none, unless what the file holds derails it: bytes that are no text, or a whole number with too many
digits or too deep a nesting in a text that is read as JSON (`Derails`). There is no third way
(`ends_or_derails`), and the failures of the second way are not dealt with by a report run
(`load_of_derails`), so the two exclude each other (`ends_load_iff`).
-/

namespace VariableReport
open Outcome

variable {fs : Files} {p : Path} {content : Utf8.Bytes} {t payload : Text} {e : Failure}
  {f : Json.Fault} {path : Text} {site : Site}

/-- A failure that says of a snapshot file why it holds no snapshot. -/
inductive Failure.OfSnapshot (path : Text) : Failure → Prop
  | unreadable (cause : Failure) : OfSnapshot path (.snapshotUnreadable path cause)
  | malformed (cause : Failure) : OfSnapshot path (.snapshotMalformed path cause)
  | notObject (typeName : Text) : OfSnapshot path (.snapshotNotObject path typeName)

theorem Failure.OfSnapshot.isOrderly (h : e.OfSnapshot path) : e.isOrderly = true := by
  cases h with
  | unreadable => rfl
  | malformed => rfl
  | notObject => rfl

namespace Snapshot

section
variable [Host]

/-- What a file holds is no text, or reading it as JSON meets a bound: in the last payload between
markers, or in the whole text if that payload is no snapshot. -/
inductive Derails (content : Utf8.Bytes) : Prop
  | encoding {f : Utf8.Fault} : Files.textOf content = .error f → Derails content
  | payload {t payload : Text} {f : Json.Fault} : Files.textOf content = .ok t →
      (payloads t).getLast? = some payload → Json.read payload .payload = .error f → f.IsBound →
      Derails content
  | text {t : Text} {f : Json.Fault} : Files.textOf content = .ok t →
      ofText? t .payload = .ok none → Json.read t .snapshot = .error f → f.IsBound → Derails content

theorem ofPayload?_of_bound (h : Json.read payload site = .error f) (hf : f.IsBound) :
    ofPayload? payload site = .error (.json f) := by
  rw [ofPayload?, h]
  cases hf with
  | digits count => rfl
  | depth container => rfl

theorem ofPayload?_eq_error (h : ofPayload? payload site = .error e) :
    ∃ f, Json.read payload site = .error f ∧ f.IsBound ∧ e = .json f := by
  unfold ofPayload? at h
  split at h
  next => cases h
  next => cases h
  next => cases h
  next f hform hread =>
    cases h
    exact ⟨f, hread, Json.Fault.isBound_of_not_malformed hform, rfl⟩

/-- The marked snapshot of a text is not to be had only if its payload meets a bound. -/
theorem ofText?_eq_error (h : ofText? t site = .error e) :
    ∃ payload f, (payloads t).getLast? = some payload ∧ Json.read payload site = .error f ∧
      f.IsBound ∧ e = .json f := by
  unfold ofText? at h
  split at h
  next payload hlast =>
    obtain ⟨f, hread, hf, he⟩ := ofPayload?_eq_error h
    exact ⟨payload, f, hlast, hread, hf, he⟩
  next => cases h

theorem ofText?_of_bound (h : (payloads t).getLast? = some payload)
    (hread : Json.read payload site = .error f) (hf : f.IsBound) :
    ofText? t site = .error (.json f) := by
  rw [ofText?, h]
  exact ofPayload?_of_bound hread hf

theorem load_of_unread {f : Files.Fault} (h : fs.read p = .error f) :
    load fs p = .error (.snapshotUnreadable p.text (.file f)) := by
  rw [load, Files.readText_of_unread h]
  rfl

theorem load_of_undecoded {f : Utf8.Fault} (h : fs.read p = .ok content)
    (ht : Files.textOf content = .error f) : load fs p = .error (.utf8 f) := by
  rw [load, Files.readText_of_read h, ht]
  rfl

/-- A text is a snapshot as a whole if no marked one stands in it. -/
theorem load_of_text (h : fs.read p = .ok content) (ht : Files.textOf content = .ok t) :
    load fs p =
      match ofText? t .payload with
      | .error e => .error e
      | .ok (some members) => .ok members
      | .ok none =>
        match Json.read t .snapshot with
        | .ok (.object members) => .ok members
        | .ok j => .error (.snapshotNotObject p.text j.typeName)
        | .error (.malformed c o l n) =>
          .error (.snapshotMalformed p.text (.json (.malformed c o l n)))
        | .error f => .error (.json f) := by
  rw [load, Files.readText_of_read h, ht]
  change (ofText? t .payload >>= _) = _
  cases ofText? t .payload with
  | error e => rfl
  | ok found => cases found <;> rfl

/-- What a file holds lets loading end with a snapshot or a failure of its own, or derails it. -/
theorem ends_or_derails (h : fs.read p = .ok content) :
    Ends (Failure.OfSnapshot p.text) (fun _ => True) (load fs p) ∨ Derails content := by
  cases ht : Files.textOf content with
  | error f => exact .inr (.encoding ht)
  | ok t =>
    rw [load_of_text h ht]
    cases hmarked : ofText? t .payload with
    | error e =>
      obtain ⟨payload, f, hlast, hread, hf, -⟩ := ofText?_eq_error hmarked
      exact .inr (.payload ht hlast hread hf)
    | ok found =>
      cases found with
      | some members => exact .inl (.ok trivial)
      | none =>
        dsimp only
        split
        next => exact .inl (.ok trivial)
        next => exact .inl (.error (.notObject _))
        next => exact .inl (.error (.malformed _))
        next f hform hread =>
          exact .inr (.text ht hmarked hread (Json.Fault.isBound_of_not_malformed hform))

/-- Loading that is derailed ends with a failure that no caller of a report run deals with. -/
theorem load_of_derails (h : fs.read p = .ok content) (hd : Derails content) :
    ∃ e, load fs p = .error e ∧ e.isOrderly = false := by
  cases hd with
  | encoding ht => exact ⟨_, load_of_undecoded h ht, rfl⟩
  | payload ht hlast hread hf =>
    rw [load_of_text h ht, ofText?_of_bound hlast hread hf]
    exact ⟨_, rfl, rfl⟩
  | text ht hnone hread hf =>
    rw [load_of_text h ht, hnone, hread]
    cases hf with
    | digits count => exact ⟨_, rfl, rfl⟩
    | depth container => exact ⟨_, rfl, rfl⟩

theorem not_derails_of_moderate (ht : Files.textOf content = .ok t)
    (hwhole : Listing.Moderate .snapshot t)
    (hpayload : ∀ payload, (payloads t).getLast? = some payload →
      Listing.Moderate .payload payload) :
    ¬Derails content := by
  have hbound {site : Site} {u : Text} {f : Json.Fault} (hu : Listing.Moderate site u)
      (hread : Json.read u site = .error f) : ¬f.IsBound := by
    obtain ⟨cause, offset, line, column, rfl⟩ := Json.form_of_read hu.runs hu.depth hread
    intro hf
    cases hf
  rintro (hf | ⟨ht', hlast, hread, hf⟩ | ⟨ht', -, hread, hf⟩)
  · rw [ht] at hf
    cases hf
  · obtain rfl := Except.ok.inj (ht.symm.trans ht')
    exact hbound (hpayload _ hlast) hread hf
  · obtain rfl := Except.ok.inj (ht.symm.trans ht')
    exact hbound hwhole hread hf

/-- Loading ends with a snapshot or a failure of its own exactly when the file holds nothing that
derails it, so also when there is no file. A failure is one that ends a report run in an orderly way
exactly when it is of this kind, and a text with moderate numbers and nesting does not derail
loading. -/
theorem ends_load_iff (fs : Files) (p : Path) :
    (Ends (Failure.OfSnapshot p.text) (fun _ => True) (load fs p) ↔
      ∀ content, fs.read p = .ok content → ¬Derails content) ∧
    (∀ e, load fs p = .error e → (e.isOrderly = true ↔ e.OfSnapshot p.text)) ∧
    ∀ content t, Files.textOf content = .ok t → Listing.Moderate .snapshot t →
      (∀ payload, (payloads t).getLast? = some payload → Listing.Moderate .payload payload) →
      ¬Derails content := by
  have hunread (f : Files.Fault) (h : fs.read p = .error f) :
      Ends (Failure.OfSnapshot p.text) (fun _ => True) (load fs p) := by
    rw [load_of_unread h]
    exact .error (.unreadable _)
  obtain ⟨hiff, horderly⟩ := Files.ends_iff_of_read (fun _ he => he.isOrderly) hunread
    (fun _ => ends_or_derails) fun _ => load_of_derails
  exact ⟨hiff, horderly, fun _ _ => not_derails_of_moderate⟩

end

def fileName : Text := "snap.json".toList

def printedPayload : Text := "\x7b\"x\": \x7b\"value\": \"1\"\x7d\x7d".toList

/-- A printed snapshot in other text. -/
def printedText : Text := "ready\n".toList ++ startMarker ++ printedPayload ++ endMarker ++ ['\n']

theorem ends_load_printed : Ends (Failure.OfSnapshot fileName) (fun _ => True)
    (load (.alone fileName (Utf8.encode printedText)) ⟨[], [fileName]⟩) := by
  obtain ⟨hends, -, hmoderate⟩ :=
    ends_load_iff (.alone fileName (Utf8.encode printedText)) ⟨[], [fileName]⟩
  have hstart : Text.cutAt startMarker printedText =
      some ("ready\n".toList, printedPayload ++ endMarker ++ ['\n']) := by decide +kernel
  have hend : Text.cutAt endMarker (printedPayload ++ endMarker ++ ['\n']) =
      some (printedPayload, ['\n']) := by decide +kernel
  refine hends.2 fun content h => ?_
  obtain rfl := Except.ok.inj ((Files.read_alone (by decide)).symm.trans h)
  refine hmoderate _ printedText (by decide +kernel)
    ⟨Text.shortRuns_of_length_le (by decide), by decide⟩ fun payload hlast => ?_
  rw [payloads_of_some hstart hend, payloads_of_none (by decide +kernel)] at hlast
  obtain rfl := Option.some.inj hlast
  exact ⟨Text.shortRuns_of_length_le (by decide), by decide⟩

/-- A file of one byte that starts no character derails loading. -/
theorem not_ends_load_of_byte : ¬Ends (Failure.OfSnapshot fileName) (fun _ => True)
    (load (.alone fileName [0xff]) ⟨[], [fileName]⟩) := by
  have htext : Files.textOf [0xff] = .error ⟨0, [0xff], .startByte⟩ := by decide +kernel
  rw [load_of_undecoded (Files.read_alone (by decide)) htext]
  intro h
  cases h.of_error

end Snapshot

end VariableReport
