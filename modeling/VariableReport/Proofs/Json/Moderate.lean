import VariableReport.Proofs.Json.Bounds
import VariableReport.Proofs.Json.Spelling
import VariableReport.Proofs.Value.Moderate

/-!
# Moderate texts of JSON

A text with short runs of digits, in which no more containers are open at once than may be, has
faults of form only (`form_of_read`). What is read from a text with short runs of digits has
moderate numbers (`moderate_of_read`), since every number is read from a run of the text. A text
of too many digits is not moderate, and it has a fault that is not of form (`read_of_long`).
-/

namespace VariableReport.Json
open Value (Moderate)

variable {c : Char} {t u rest : Text} {j : Json} {js : List Json} {ms : List (Text × Json)}
  {p : Part}

theorem isDigit_decimal (h : isDigit c = true) : Decimal.isDigit 10 c = true := by
  simp only [isDigit, Bool.and_eq_true, decide_eq_true_eq] at h
  have h0 : 48 ≤ c.toNat := h.1
  have h9 : c.toNat ≤ 57 := h.2
  simp only [Decimal.isDigit, Decimal.digitValue?, h0, h9, decide_true, Bool.and_self, if_true,
    decide_eq_true_eq]
  omega

theorem length_digits_le (ht : t.ShortRuns) (hu : u <:+: t) (h : ∀ c ∈ u, isDigit c = true) :
    u.length ≤ Text.maxRun :=
  ht.length_le hu (fun c hc => h c (List.mem_of_mem_head? hc)) fun c hc =>
    Text.isRunChar_of_isDigit (isDigit_decimal (h c hc))

theorem form_of_read [Host] {site : Site} {f : Fault} (ht : t.ShortRuns)
    (hdepth : overflows false (Host.jsonDepth site) t = false) (h : read t site = .error f) :
    ∃ cause offset line column, f = .malformed cause offset line column := by
  obtain ⟨e, hexceeds, rfl⟩ := exceeds_of_read h
  cases hexceeds with
  | form cause left => exact ⟨_, _, _, _, rfl⟩
  | @digits u hu hdigits hlong =>
    have hshort := length_digits_le ht hu hdigits
    have hbounds : Text.maxRun < Value.maxDigits := by decide
    omega
  | depth container hover =>
    rw [hdepth] at hover
    contradiction

theorem moderate_array (h : ∀ j ∈ js, Moderate j.toValue) : Moderate (toValue (.array js)) := by
  rw [toValue]
  refine .list ?_
  induction js with
  | nil => simp [toValues]
  | cons j js ih =>
    rw [List.forall_mem_cons] at h
    exact List.forall_mem_cons.2 ⟨h.1, ih h.2⟩

theorem mem_toEntries {e : Value × Value} (h : e ∈ toEntries ms) :
    ∃ m ∈ ms, e = (.str m.1, m.2.toValue) := by
  induction ms with
  | nil => cases h
  | cons m ms ih =>
    obtain ⟨k, j⟩ := m
    rcases List.mem_cons.1 h with rfl | h
    · exact ⟨_, List.mem_cons_self, rfl⟩
    · obtain ⟨m, hm, he⟩ := ih h
      exact ⟨m, List.mem_cons_of_mem _ hm, he⟩

theorem moderate_object (h : ∀ m ∈ ms, Moderate m.2.toValue) : Moderate (toValue (.object ms)) := by
  rw [toValue]
  refine .dict (fun e he => ?_) fun e he => ?_
  · obtain ⟨m, -, rfl⟩ := mem_toEntries he
    exact .str m.1
  · obtain ⟨m, hm, rfl⟩ := mem_toEntries he
    exact h m hm

theorem forall_mem_put {P : Json → Prop} {name : Text} (hj : P j) (h : ∀ m ∈ ms, P m.2) :
    ∀ m ∈ put name j ms, P m.2 := by
  induction ms with
  | nil => simpa [put] using hj
  | cons m ms ih =>
    obtain ⟨k, i⟩ := m
    rw [List.forall_mem_cons] at h
    rw [put]
    split
    · exact List.forall_mem_cons.2 ⟨hj, h.2⟩
    · exact List.forall_mem_cons.2 ⟨h.1, ih h.2⟩

/-- The values of merged members are values of members. -/
theorem forall_mem_merge {P : Json → Prop} (h : ∀ m ∈ ms, P m.2) : ∀ m ∈ merge ms, P m.2 :=
  List.foldlRecOn ms _ (motive := fun acc : List (Text × Json) => ∀ m ∈ acc, P m.2) (by simp)
    fun _ hacc m hm => forall_mem_put (h m hm) hacc

/-- Every whole number in the part is below the bound. -/
def Part.Moderate : Part → Prop
  | value j => Value.Moderate j.toValue
  | items js => ∀ j ∈ js, Value.Moderate j.toValue
  | members ms => ∀ m ∈ ms, Value.Moderate m.2.toValue

theorem moderate_atom (ht : t.ShortRuns) (h : readAtom t = .ok (j, rest)) :
    Moderate j.toValue := by
  have hatom := readsAtom_readAtom t
  rw [h] at hatom
  cases hatom with
  | @whole s u n rest hs hdigits hn =>
    have hu : u <:+: s ++ (u ++ rest) :=
      (List.prefix_append u rest).isInfix.trans (List.suffix_append s _).isInfix
    refine .int ?_
    rw [hn]
    exact Decimal.value_lt_bound (by decide) (fun c hc => isDigit_decimal (hdigits c hc))
      (length_digits_le ht hu hdigits)
  | inexact rest hj _ =>
    cases hj with
    | null => exact .none
    | bool b => exact .bool b
    | float d => exact .float d

theorem Reads.moderate (h : Reads t p rest) (ht : t.ShortRuns) : p.Moderate := by
  -- the places that reading comes to are in the text, and have short runs too
  have hspace {t : Text} (ht : t.ShortRuns) : (skipSpace t).ShortRuns :=
    ht.part (Leads.skipSpace 0 t).suffix.isInfix
  have hchar {t u : Text} {c : Char} (ht : t.ShortRuns) (hu : skipSpace t = c :: u) :
      u.ShortRuns := by
    have h := hspace ht
    rw [hu] at h
    exact h.part (List.suffix_cons c u).isInfix
  have hrest {t u : Text} {p : Part} (h : Reads t p u) (ht : t.ShortRuns) : u.ShortRuns :=
    ht.part (h.leads 0).suffix.isInfix
  have hname {t u name : Text} {opening : Nat} (h : readChars opening t = .ok (name, u))
      (ht : Text.ShortRuns ('\x22' :: t)) : u.ShortRuns :=
    ht.part ((closes_of_readChars h).suffix.trans (List.suffix_cons _ t)).isInfix
  have hopened {t : Text} {c : Char} (ht : Text.ShortRuns (c :: t)) : (skipSpace t).ShortRuns :=
    hspace (ht.part (List.suffix_cons c t).isInfix)
  induction h with
  | text hs => exact .str _
  | atom h => exact moderate_atom ht h
  | noItems _ => exact moderate_array (by simp)
  | array _ ih => exact moderate_array (ih (hopened ht))
  | noMembers _ => exact moderate_object (by simp)
  | object _ ih =>
    exact moderate_object (forall_mem_merge (P := fun j => Moderate j.toValue) (ih (hopened ht)))
  | lastItem _ _ ih => exact List.forall_mem_singleton.2 (ih ht)
  | item hj hu _ ihj ihjs =>
    exact List.forall_mem_cons.2 ⟨ihj ht, ihjs (hspace (hchar (hrest hj ht) hu))⟩
  | lastMember hn hu _ _ ih =>
    exact List.forall_mem_singleton.2 (ih (hspace (hchar (hname hn ht) hu)))
  | member hn hu hj hw _ ihj ihms =>
    have hvalue := hspace (hchar (hname hn ht) hu)
    exact List.forall_mem_cons.2 ⟨ihj hvalue, ihms (hspace (hchar (hrest hj hvalue) hw))⟩

theorem moderate_of_read [Host] {site : Site} (ht : t.ShortRuns) (h : read t site = .ok j) :
    Moderate j.toValue := by
  rw [read] at h
  split at h
  next => cases h
  next =>
    unfold readAll at h
    split at h
    next => cases h
    next i rest hi =>
      have hmoderate := ((reads_read _).1 hi).moderate
        (ht.part (Leads.skipSpace 0 t).suffix.isInfix)
      split at h
      next =>
        cases h
        exact hmoderate
      next => cases h

/-- The bound on the digits of a number is one that texts can exceed. -/
theorem read_of_long [Host] (site : Site) (hzero : c ≠ '0') (ht : ∀ d ∈ c :: t, isDigit d = true)
    (hlong : Value.maxDigits < (c :: t).length) :
    read (c :: t) site = .error (.tooManyDigits (c :: t).length) := by
  have hc := ht c List.mem_cons_self
  obtain ⟨hspace, -, hquote, hbracket, hbrace⟩ := digit_start hc
  have hmark : (c :: t).head? ≠ some '\ufeff' := by
    rintro ⟨⟩
    contradiction
  have hvalue : readValue (2 * (c :: t).length + 2) (Host.jsonDepth site) (c :: t) =
      .error (.tooManyDigits (c :: t).length) := by
    rw [← readAtom_of_long hzero ht hlong, readValue.eq_def]
    dsimp only
    split
    next h => exact absurd (List.cons.inj h).1 hquote
    next h => exact absurd (List.cons.inj h).1 hbracket
    next h => exact absurd (List.cons.inj h).1 hbrace
    next => rfl
  rw [read, if_neg hmark, readAll, skipSpace_cons hspace, hvalue]
  rfl

end VariableReport.Json
