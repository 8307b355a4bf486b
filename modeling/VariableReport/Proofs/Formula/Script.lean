import VariableReport.Formula.Script
import VariableReport.Proofs.Text.Insertion
import Mathlib.Data.List.TakeWhile

/-!
# Bracing as a relation

Bracing is executed by a machine with three stages. Here it is a relation between a text
and its braced form, which takes one character outside runs or one whole run at a time, and
the machine computes this relation (`bracing_brace`, `Bracing.brace_eq`). What bracing
keeps follows by induction on the relation: it only puts braces in, it is local at every
character that is no part of a script, and what is braced is left alone the next time.
-/

namespace VariableReport.Formula.Script
open Text

/-- A text and its form with every run after the mark in braces. A run has at least one
character and ends where no member follows. -/
inductive Bracing (s : Script) : Text → Text → Prop
  | nil : Bracing s [] []
  | plain {c : Char} {t u : Text} :
      (c = s.mark → s.opens t = false) → Bracing s t u → Bracing s (c :: t) (c :: u)
  | group {lead run t u : Text} : lead = [] ∨ (∃ l, s.lead = some l ∧ lead = [l]) →
      run ≠ [] → (∀ c ∈ run, s.member c = true) → (∀ c ∈ t.head?, s.member c = false) →
      Bracing s t u →
      Bracing s (s.mark :: (lead ++ (run ++ t)))
        (s.mark :: '\x7b' :: (lead ++ (run ++ '\x7d' :: u)))

/-- The mark, the lead, the members and the braces are kept apart. -/
structure Proper (s : Script) : Prop where
  mark_member : s.member s.mark = false
  lead_member : ∀ l, s.lead = some l → s.member l = false
  lead_mark : s.lead ≠ some s.mark
  open_member : s.member '\x7b' = false
  close_member : s.member '\x7d' = false
  open_mark : s.mark ≠ '\x7b'
  close_mark : s.mark ≠ '\x7d'
  open_lead : s.lead ≠ some '\x7b'

theorem subscript_proper : subscript.Proper where
  mark_member := by decide
  lead_member := by rintro l ⟨⟩; decide
  lead_mark := by decide
  open_member := by decide
  close_member := by decide
  open_mark := by decide
  close_mark := by decide
  open_lead := by decide

theorem superscript_proper : superscript.Proper where
  mark_member := by decide
  lead_member := by rintro l ⟨⟩
  lead_mark := by decide
  open_member := by decide
  close_member := by decide
  open_mark := by decide
  close_mark := by decide
  open_lead := by decide

/-- A character that belongs neither to a mark nor to a run. -/
structure Foreign (s : Script) (d : Char) : Prop where
  mark : d ≠ s.mark
  lead : s.lead ≠ some d
  member : s.member d = false

variable {s : Script} {t u v w : Text}

theorem Proper.mark_not_mem_lead (hs : s.Proper) {lead : Text}
    (hl : lead = [] ∨ ∃ l, s.lead = some l ∧ lead = [l]) : s.mark ∉ lead := by
  rcases hl with rfl | ⟨l, hl, rfl⟩
  · simp
  · intro hm
    rw [List.mem_singleton] at hm
    exact hs.lead_mark (hm ▸ hl)

theorem Proper.mark_not_mem_run (hs : s.Proper) {run : Text}
    (hr : ∀ c ∈ run, s.member c = true) : s.mark ∉ run := by
  intro hm
  have := hr _ hm
  rw [hs.mark_member] at this
  contradiction

theorem braceFrom_outside_plain {c : Char} (h : c = s.mark → s.opens t = false) :
    s.braceFrom .outside (c :: t) = c :: s.braceFrom .outside t := by
  have hc : (decide (c = s.mark) && s.opens t) = false := by
    by_cases hm : c = s.mark
    · simp [h hm]
    · simp [hm]
  simp [braceFrom, hc]

/-- The machine copies the members of a run and closes the brace behind the last one. -/
theorem braceFrom_inside_run {run : Text} (hr : ∀ c ∈ run, s.member c = true)
    (ht : ∀ c ∈ t.head?, s.member c = false) :
    s.braceFrom .inside (run ++ t) = run ++ '\x7d' :: s.braceFrom .outside t := by
  induction run with
  | nil =>
    cases t with
    | nil => rfl
    | cons c t =>
      have hc : s.member c = false := ht c (by simp)
      simp [braceFrom, hc]
  | cons c run ih =>
    have hc : s.member c = true := hr c (by simp)
    have := ih fun d hd => hr d (by simp [hd])
    simp [braceFrom, hc, this]

theorem braceFrom_outside_group {lead run : Text}
    (hl : lead = [] ∨ ∃ l, s.lead = some l ∧ lead = [l]) (hne : run ≠ [])
    (hr : ∀ c ∈ run, s.member c = true) (ht : ∀ c ∈ t.head?, s.member c = false) :
    s.braceFrom .outside (s.mark :: (lead ++ (run ++ t))) =
      s.mark :: '\x7b' :: (lead ++ (run ++ '\x7d' :: s.braceFrom .outside t)) := by
  obtain ⟨c, cs, rfl⟩ := List.exists_cons_of_ne_nil hne
  have hc : s.member c = true := hr c (by simp)
  have hin : s.braceFrom .inside (cs ++ t) = cs ++ '\x7d' :: s.braceFrom .outside t :=
    braceFrom_inside_run (fun d hd => hr d (by simp [hd])) ht
  rcases hl with rfl | ⟨l, hl, rfl⟩
  · simp [braceFrom, opens, hc, hin]
  · simp [braceFrom, opens, hl, hc, hin]

/-- Where a script opens, the text starts with a group. -/
theorem exists_group_of_opens (h : s.opens t = true) :
    ∃ lead run rest, t = lead ++ (run ++ rest) ∧
      (lead = [] ∨ ∃ l, s.lead = some l ∧ lead = [l]) ∧ run ≠ [] ∧
      (∀ c ∈ run, s.member c = true) ∧ ∀ c ∈ rest.head?, s.member c = false := by
  have hrun (x : Text) : ∀ c ∈ x.takeWhile s.member, s.member c = true :=
    fun c hc => List.mem_takeWhile_imp hc
  have hrest (x : Text) : ∀ c ∈ (x.dropWhile s.member).head?, s.member c = false := by
    intro c hc
    have := List.head?_dropWhile_not s.member x
    simp_all
  cases t with
  | nil => simp [opens] at h
  | cons c cs =>
    by_cases hc : s.member c = true
    · refine ⟨[], (c :: cs).takeWhile s.member, (c :: cs).dropWhile s.member, ?_, .inl rfl, ?_,
        hrun _, hrest _⟩
      · rw [List.nil_append, List.takeWhile_append_dropWhile]
      · simp [hc]
    · simp only [opens, hc, Bool.false_or, Bool.and_eq_true, decide_eq_true_eq] at h
      refine ⟨[c], cs.takeWhile s.member, cs.dropWhile s.member, ?_, .inr ⟨c, h.1, rfl⟩, ?_,
        hrun _, hrest _⟩
      · rw [List.takeWhile_append_dropWhile, List.singleton_append]
      · cases cs with
        | nil => simp at h
        | cons d ds => simp_all

theorem bracing_brace (s : Script) (t : Text) : s.Bracing t (s.brace t) := by
  induction hn : t.length using Nat.strongRecOn generalizing t with
  | ind n ih =>
    cases t with
    | nil => exact .nil
    | cons c cs =>
      simp only [List.length_cons] at hn
      by_cases hg : c = s.mark ∧ s.opens cs = true
      · obtain ⟨rfl, ho⟩ := hg
        obtain ⟨lead, run, rest, rfl, hl, hne, hr, ht⟩ := exists_group_of_opens ho
        simp only [List.length_append] at hn
        rw [brace, braceFrom_outside_group hl hne hr ht]
        exact .group hl hne hr ht (ih rest.length (by omega) rest rfl)
      · have hp : c = s.mark → s.opens cs = false := by
          intro hm
          simpa using fun ho => hg ⟨hm, ho⟩
        rw [brace, braceFrom_outside_plain hp]
        exact .plain hp (ih cs.length (by omega) cs rfl)

namespace Bracing

theorem brace_eq (h : s.Bracing t u) : s.brace t = u := by
  unfold brace
  induction h with
  | nil => rfl
  | plain hp _ ih => rw [braceFrom_outside_plain hp, ih]
  | group hl hne hr ht _ ih => rw [braceFrom_outside_group hl hne hr ht, ih]

theorem inserted (h : s.Bracing t u) : Inserted (fun c => c = '\x7b' ∨ c = '\x7d') t u := by
  induction h with
  | nil => exact .nil
  | plain _ _ ih => exact .keep ih
  | @group lead run _ _ _ _ _ _ _ ih =>
    refine .keep (.add (.inl rfl) ?_)
    exact (Inserted.refl lead).append ((Inserted.refl run).append (.add (.inr rfl) ih))

theorem head_eq (h : s.Bracing t u) : u.head? = t.head? := by
  cases h <;> rfl

/-- Whether a run starts at a text is seen at its first two characters. -/
theorem opens_eq (hs : s.Proper) (h : s.Bracing t u) : s.opens u = s.opens t := by
  cases h with
  | nil => rfl
  | plain _ h => simp [opens, h.head_eq]
  | group => simp [opens, hs.mark_member, hs.lead_mark]

/-- A copied text without marks is braced as it is. -/
theorem copy {r : Text} (hr : s.mark ∉ r) (h : s.Bracing t u) : s.Bracing (r ++ t) (r ++ u) := by
  induction r with
  | nil => exact h
  | cons c r ih =>
    simp only [List.mem_cons, not_or] at hr
    exact .plain (fun hm => absurd hm.symm hr.1) (ih hr.2)

/-- What is braced is left alone the next time. -/
theorem braced (hs : s.Proper) (h : s.Bracing t u) : s.Bracing u u := by
  induction h with
  | nil => exact .nil
  | plain hp h ih => exact .plain (fun hm => (h.opens_eq hs).trans (hp hm)) ih
  | @group lead run t u hl _ hr _ h ih =>
    have hopen : s.opens ('\x7b' :: (lead ++ (run ++ '\x7d' :: u))) = false := by
      simp [opens, hs.open_member, hs.open_lead]
    have hclose := Bracing.plain (fun hm => absurd hm.symm hs.close_mark) ih
    refine .plain (fun _ => hopen) (.plain (fun hm => absurd hm.symm hs.open_mark) ?_)
    exact copy (hs.mark_not_mem_lead hl) (copy (hs.mark_not_mem_run hr) hclose)

theorem isChain_copy {r : Text} (hr : s.mark ∉ r)
    (ht : t.IsChain fun a b => a = s.mark → s.member b = false) :
    (r ++ t).IsChain fun a b => a = s.mark → s.member b = false := by
  induction r with
  | nil => exact ht
  | cons c r ih =>
    simp only [List.mem_cons, not_or] at hr
    rw [List.cons_append, List.isChain_cons]
    exact ⟨fun _ _ hm => absurd hm.symm hr.1, ih hr.2⟩

/-- No member follows the mark in a braced text. -/
theorem isChain (hs : s.Proper) (h : s.Bracing t u) :
    u.IsChain fun a b => a = s.mark → s.member b = false := by
  induction h with
  | nil => simp
  | @plain c t u hp h ih =>
    rw [List.isChain_cons]
    refine ⟨fun b hb hm => ?_, ih⟩
    rw [h.head_eq] at hb
    have := hp hm
    cases t with
    | nil => simp at hb
    | cons d t => simp_all [opens]
  | @group lead run t u hl _ hr _ h ih =>
    rw [List.isChain_cons, List.isChain_cons]
    refine ⟨by simp [hs.open_member], fun b _ hm => absurd hm.symm hs.open_mark, ?_⟩
    apply isChain_copy (hs.mark_not_mem_lead hl)
    apply isChain_copy (hs.mark_not_mem_run hr)
    rw [List.isChain_cons]
    exact ⟨fun b _ hm => absurd hm.symm hs.close_mark, ih⟩

/-- A foreign character between two texts keeps their braced forms apart. -/
theorem append_cons {d : Char} (hd : s.Foreign d) (h : s.Bracing t u) (k : s.Bracing v w) :
    s.Bracing (t ++ d :: v) (u ++ d :: w) := by
  induction h with
  | nil => exact .plain (fun hm => absurd hm hd.mark) k
  | @plain c t u hp h ih =>
    refine .plain (fun hm => ?_) ih
    have := hp hm
    match t with
    | [] => simp [opens, hd.member, hd.lead]
    | [x] => simp_all [opens, hd.member]
    | x :: y :: t => simpa [opens] using this
  | @group lead run t u hl hne hr ht h ih =>
    have ht' : ∀ c ∈ (t ++ d :: v).head?, s.member c = false := by
      cases t with
      | nil => simp [hd.member]
      | cons x t => simpa using ht
    simpa using Bracing.group hl hne hr ht' ih

end Bracing

theorem brace_brace (hs : s.Proper) (t : Text) : s.brace (s.brace t) = s.brace t :=
  ((bracing_brace s t).braced hs).brace_eq

theorem brace_inserted (s : Script) (t : Text) :
    Inserted (fun c => c = '\x7b' ∨ c = '\x7d') t (s.brace t) := (bracing_brace s t).inserted

theorem brace_splitsAt {d : Char} (hd : s.Foreign d) : SplitsAt s.brace d := fun a b =>
  ((bracing_brace s a).append_cons hd (bracing_brace s b)).brace_eq

/-- A script without a lead has nothing to brace exactly when no member follows the mark. -/
theorem brace_eq_self_of_isChain (hl : s.lead = none)
    (h : t.IsChain fun a b => a = s.mark → s.member b = false) : s.brace t = t := by
  apply Bracing.brace_eq
  induction t with
  | nil => exact .nil
  | cons c t ih =>
    rw [List.isChain_cons] at h
    refine .plain (fun hm => ?_) (ih h.2)
    cases t with
    | nil => rfl
    | cons d t => simpa [opens, hl] using h.1 d (by simp) hm

end VariableReport.Formula.Script
