import VariableReport.Settings.File
import VariableReport.Proofs.Files.Text
import VariableReport.Proofs.Json.Bounds
import VariableReport.Proofs.Json.Rendered
import VariableReport.Proofs.Outcome
import VariableReport.Standard

/-!
# What loading settings ends with

Loading ends with usable settings or with a failure that says of the file, by its path, why it holds
none, unless what the file holds derails it: too deep a nesting, or an object from which the library
builds no settings because a list is read that has no items (`Derails`).

Which objects these are is known as far as the library is. Its other faults are told with the path,
and so are those of the check of what it has built (`ends_ofJson`), so without a value that has no
items in the place of a list nothing but depth derails loading (`not_derails_of_lists`). If such a
value is the only thing that is wrong with an object, it does (`derails_of_single`).
-/

namespace VariableReport
open Outcome

variable {fs : Files} {p : Path} {content : Utf8.Bytes} {t path : Text} {e : Failure}

/-- A failure that says of a settings file why it holds no usable settings. -/
inductive Failure.OfSettings (path : Text) : Failure → Prop
  | unreadable (cause : Failure) : OfSettings path (.settingsUnreadable path cause)
  | notObject (typeName : Text) : OfSettings path (.settingsNotObject path typeName)
  | invalid (cause : Failure) : OfSettings path (.settingsInvalid path cause)

theorem Failure.OfSettings.isOrderly (h : e.OfSettings path) : e.isOrderly = true := by
  cases h with
  | unreadable => rfl
  | notObject => rfl
  | invalid => rfl

namespace Settings

variable {members : Members} {field : Text} {j : Json} {s : Settings} {f : Fault}

theorem Fault.IsTold.invalid (h : f.IsTold) (p : Path) : (invalid p f).OfSettings p.text := by
  cases h with
  | unknownField name => exact .invalid _
  | wrongType field expected value typeName => exact .invalid _
  | keyNotPair index length => exact .invalid _
  | valueTooLong => exact .invalid _
  | misuse m => exact .invalid _

theorem ends_check (s : Settings) : Ends Fault.IsTold Usable (check s) := by
  unfold check
  split
  next m _ => exact .error (.misuse m)
  next h => exact .ok (.of_misuse?_eq_none h)

section
variable [Builder]

/-- A fault that is not told is the conversion of a value without items. -/
theorem ends_ofJson
    (h : ¬∃ typeName, Builder.build (.object members) = .error (.notSequence typeName)) :
    Ends Fault.IsTold Usable (ofJson (.object members)) := by
  rw [ofJson]
  cases hbuild : Builder.build (.object members) with
  | ok s => exact ends_check s
  | error f =>
    rcases Builder.fault hbuild with htold | ⟨field, -, j, -, -, rfl⟩
    · exact .error htold
    · exact (h ⟨_, hbuild⟩).elim

/-- A name that is no field is a fault of the library, whatever else is wrong. -/
theorem strayName?_of_notSequence {typeName : Text}
    (h : Builder.build (.object members) = .error (.notSequence typeName)) :
    strayName? members = none := by
  by_contra hstray
  obtain ⟨name, hbuild⟩ := Builder.stray hstray
  rw [hbuild] at h
  cases h

/-! ### Files -/

variable [Host]

/-- What a file holds is a text with too deep a nesting, or an object of fields of which one is read
as a list and has no items. -/
inductive Derails (content : Utf8.Bytes) : Prop
  | depth {t : Text} {container : Json.Container} : Files.textOf content = .ok t →
      Json.read t .settings = .error (.tooDeep container) → Derails content
  | fields {t typeName : Text} {members : Members} : Files.textOf content = .ok t →
      Json.read t .settings = .ok (.object members) →
      Builder.build (.object members) = .error (.notSequence typeName) → Derails content

theorem load_of_unread {f : Files.Fault} (h : fs.read p = .error f) :
    load fs p = .error (.settingsUnreadable p.text (.file f)) := by
  rw [load, jsonOf, Files.readText_of_unread h]
  rfl

theorem load_of_undecoded {f : Utf8.Fault} (h : fs.read p = .ok content)
    (ht : Files.textOf content = .error f) :
    load fs p = .error (.settingsUnreadable p.text (.utf8 f)) := by
  rw [load, jsonOf, Files.readText_of_read h, ht]
  rfl

theorem load_of_text (h : fs.read p = .ok content) (ht : Files.textOf content = .ok t) :
    load fs p =
      match Json.read t .settings with
      | .ok (.object members) => (ofJson (.object members)).mapError (invalid p)
      | .ok j => .error (.settingsNotObject p.text j.typeName)
      | .error (.tooDeep c) => .error (.json (.tooDeep c))
      | .error f => .error (.settingsUnreadable p.text (.json f)) := by
  rw [load, jsonOf, Files.readText_of_read h, ht]
  dsimp only [Except.mapError]
  cases Json.read t .settings with
  | error f => cases f <;> rfl
  | ok j => cases j <;> rfl

/-- What a file holds lets loading end with usable settings or a failure of its own, or derails
it. -/
theorem ends_or_derails (h : fs.read p = .ok content) :
    Ends (Failure.OfSettings p.text) Usable (load fs p) ∨ Derails content := by
  cases ht : Files.textOf content with
  | error f =>
    rw [load_of_undecoded h ht]
    exact .inl (.error (.unreadable _))
  | ok t =>
    rw [load_of_text h ht]
    split
    next members hread =>
      by_cases h : ∃ typeName, Builder.build (.object members) = .error (.notSequence typeName)
      · obtain ⟨typeName, hbuild⟩ := h
        exact .inr (.fields ht hread hbuild)
      · exact .inl ((ends_ofJson h).mapError fun _ hf => hf.invalid p)
    next => exact .inl (.error (.notObject _))
    next hread => exact .inr (.depth ht hread)
    next => exact .inl (.error (.unreadable _))

/-- Loading that is derailed ends with a failure that no caller of a report run deals with. -/
theorem load_of_derails (h : fs.read p = .ok content) (hd : Derails content) :
    ∃ e, load fs p = .error e ∧ e.isOrderly = false := by
  cases hd with
  | depth ht hread =>
    rw [load_of_text h ht, hread]
    exact ⟨_, rfl, rfl⟩
  | fields ht hread hbuild =>
    rw [load_of_text h ht, hread]
    dsimp only
    rw [ofJson, hbuild]
    exact ⟨_, rfl, rfl⟩

theorem not_derails_of_lists (ht : Files.textOf content = .ok t)
    (hdepth : Json.overflows false (Host.jsonDepth .settings) t = false)
    (hlists : ∀ members, Json.read t .settings = .ok (.object members) →
      strayName? members = none →
      ∀ field ∈ listNames, ∀ j, Json.find? field members = some j → ¬j.Single) :
    ¬Derails content := by
  rintro (⟨ht', hread⟩ | ⟨ht', hread, hbuild⟩)
  · obtain rfl := Except.ok.inj (ht.symm.trans ht')
    rw [Json.overflows_of_read hread] at hdepth
    contradiction
  · obtain rfl := Except.ok.inj (ht.symm.trans ht')
    rcases Builder.fault hbuild with htold | ⟨field, hfield, j, hj, hsingle, -⟩
    · cases htold
    · exact hlists _ hread (strayName?_of_notSequence hbuild) field hfield j hj hsingle

theorem derails_of_single (ht : Files.textOf content = .ok t)
    (hread : Json.read t .settings = .ok (.object members)) (hstray : strayName? members = none)
    (hnearly : ∀ m ∈ members, Nearly m) (hfield : field ∈ listNames)
    (hj : Json.find? field members = some j) (hsingle : j.Single) : Derails content := by
  obtain ⟨typeName, hbuild⟩ := Builder.single hstray hfield hj hsingle hnearly
  exact .fields ht hread hbuild

/-- Loading ends with usable settings or a failure of its own exactly when the file holds nothing
that derails it, so also when there is no file. A failure is one that ends a report run in an
orderly way exactly when it is of this kind. A text derails loading only by too deep a nesting or,
if all names are fields, by a value without items as one of those that are lists; and such a value
derails loading where nothing else is wrong with the fields. -/
theorem ends_usable_iff (fs : Files) (p : Path) :
    (Ends (Failure.OfSettings p.text) Usable (load fs p) ↔
      ∀ content, fs.read p = .ok content → ¬Derails content) ∧
    (∀ e, load fs p = .error e → (e.isOrderly = true ↔ e.OfSettings p.text)) ∧
    (∀ content t, Files.textOf content = .ok t →
      Json.overflows false (Host.jsonDepth .settings) t = false →
      (∀ members, Json.read t .settings = .ok (.object members) → strayName? members = none →
        ∀ field ∈ listNames, ∀ j, Json.find? field members = some j → ¬j.Single) →
      ¬Derails content) ∧
    ∀ content t members, Files.textOf content = .ok t →
      Json.read t .settings = .ok (.object members) → strayName? members = none →
      (∀ m ∈ members, Nearly m) →
      ∀ field ∈ listNames, ∀ j, Json.find? field members = some j → j.Single →
      Derails content := by
  have hunread (f : Files.Fault) (h : fs.read p = .error f) :
      Ends (Failure.OfSettings p.text) Usable (load fs p) := by
    rw [load_of_unread h]
    exact .error (.unreadable _)
  obtain ⟨hiff, horderly⟩ := Files.ends_iff_of_read (fun _ he => he.isOrderly) hunread
    (fun _ => ends_or_derails) fun _ => load_of_derails
  exact ⟨hiff, horderly, fun _ _ => not_derails_of_lists,
    fun _ _ _ ht hread hstray hnearly _ hfield _ =>
      derails_of_single ht hread hstray hnearly hfield⟩

end

def fileName : Text := "cfg.json".toList

/-- Settings that leave most fields out. -/
def partialMembers : Members :=
  [("symbols".toList, .array [.str "alpha".toList]), ("title".toList, .str "Beam".toList)]

def partialText : Text := Json.render .compact (.object partialMembers)

theorem ends_usable_partial : Ends (Failure.OfSettings fileName) Usable
    (load (.alone fileName (Utf8.encode partialText)) ⟨[], [fileName]⟩) := by
  obtain ⟨hends, -, hlists, -⟩ :=
    ends_usable_iff (.alone fileName (Utf8.encode partialText)) ⟨[], [fileName]⟩
  have htextual : Json.Textual 2 (.object partialMembers) := by
    refine .object (by decide) ?_
    rw [partialMembers, List.forall_mem_cons, List.forall_mem_singleton]
    exact ⟨.array (List.forall_mem_singleton.2 (.str 0 _)), .str 1 _⟩
  refine hends.2 fun content h => ?_
  obtain rfl := Except.ok.inj ((Files.read_alone (by decide)).symm.trans h)
  refine hlists _ partialText (by decide +kernel) (by decide +kernel) fun members hread _ => ?_
  rw [partialText, Json.read_render htextual (by decide)] at hread
  cases hread
  rw [listNames, List.forall_mem_cons, List.forall_mem_singleton]
  refine ⟨fun j hj => ?_, fun j hj => ?_⟩
  · cases hj
    rintro ⟨⟩
  · cases hj

/-- Settings with a number in the place of a list. -/
def numberText : Text := "\x7b\"symbols\": 5\x7d".toList

/-- The member of an object that has one, if it is a whole number. -/
def onlyNumber? : Json → Option (Text × Int)
  | .object [(name, .int n)] => some (name, n)
  | _ => none

theorem eq_of_onlyNumber? {name : Text} {n : Int} (h : onlyNumber? j = some (name, n)) :
    j = .object [(name, .int n)] := by
  unfold onlyNumber? at h
  split at h
  next =>
    cases h
    rfl
  next => cases h

theorem not_ends_usable_of_number : ¬Ends (Failure.OfSettings fileName) Usable
    (load (.alone fileName (Utf8.encode numberText)) ⟨[], [fileName]⟩) := by
  have hvalue : (Json.read numberText .settings).toOption.bind onlyNumber? =
      some ("symbols".toList, 5) := by decide +kernel
  obtain ⟨j, hread, hnumber⟩ := Option.bind_eq_some_iff.1 hvalue
  obtain rfl := eq_of_onlyNumber? hnumber
  have hderails : Derails (Utf8.encode numberText) :=
    derails_of_single (by decide +kernel) (eq_ok_of_toOption hread) (by decide)
      (List.forall_mem_singleton.2 (.inr ⟨by decide, .int 5⟩)) (List.mem_cons_self ..) rfl (.int 5)
  have hfile : (Files.alone fileName (Utf8.encode numberText)).read ⟨[], [fileName]⟩ =
      .ok (Utf8.encode numberText) := Files.read_alone (by decide)
  obtain ⟨e, he, horderly⟩ := load_of_derails hfile hderails
  rw [he]
  intro h
  cases h.of_error.isOrderly.symm.trans horderly

end Settings

end VariableReport
