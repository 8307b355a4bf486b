import VariableReport.Proofs.Text.Pieces
import VariableReport.Proofs.Text.Quoted
import VariableReport.Value.Printer
import Mathlib.Data.Bool.AllAny

/-!
# Plain values

Plain values are nothing, truth values, printable whole numbers and texts, in lists and tuples
up to a depth. Every one of them prints (`Plain.literal?_eq`), and a list or a
tuple prints as a bracket, its first item, the other items with a comma and a blank before
each, and a bracket.
-/

namespace VariableReport.Value
open Text

variable {d : Nat} {v : Value} {vs : List Value}

/-- Values without floats, bytes, dictionaries and sets, with brackets up to a depth. -/
inductive Plain : Nat → Value → Prop
  | none (d : Nat) : Plain d .none
  | bool (d : Nat) (b : Bool) : Plain d (.bool b)
  | int (d : Nat) {n : Int} : n.natAbs < Decimal.pow 10 maxDigits → Plain d (.int n)
  | str (d : Nat) (t : Text) : Plain d (.str t)
  | list {d : Nat} {vs : List Value} : (∀ v ∈ vs, Plain d v) → Plain (d + 1) (.list vs)
  | tuple {d : Nat} {vs : List Value} : (∀ v ∈ vs, Plain d v) → Plain (d + 1) (.tuple vs)

/-- The literal of a value that has one. -/
def spelling (v : Value) : Text := v.literal?.getD []

/-- The items after the first one, each behind a comma. -/
def tailText (vs : List Value) : Text := vs.flatMap fun v => comma ++ spelling v

/-- As `tailText`; a tuple of one item has a comma all the same. -/
def tupleTailText : List Value → Text
  | [] => [',']
  | v :: vs => tailText (v :: vs)

theorem tailText_cons (v : Value) (vs : List Value) :
    tailText (v :: vs) = ',' :: ' ' :: (spelling v ++ tailText vs) := by
  simp [tailText, comma]

theorem literals?_eq (h : ∀ v ∈ vs, v.literal? = some (spelling v)) :
    literals? vs = some (vs.map spelling) := by
  induction vs with
  | nil => rfl
  | cons v vs ih =>
    rw [literals?, h v List.mem_cons_self, ih fun w hw => h w (List.mem_cons_of_mem v hw)]
    rfl

theorem Plain.literal?_eq (h : Plain d v) : v.literal? = some (spelling v) := by
  have hsome : ∀ {v : Value} {t : Text}, v.literal? = some t → v.literal? = some (spelling v) := by
    intro v t ht
    rw [spelling, ht]
    rfl
  induction h with
  | none d => exact hsome rfl
  | bool d b => exact hsome rfl
  | @int d n hn =>
    apply hsome (t := Decimal.intText n)
    rw [literal?, intText?, if_pos hn]
  | str d t => exact hsome rfl
  | list _ ih =>
    apply hsome
    rw [literal?, literals?_eq ih]
    rfl
  | tuple _ ih =>
    apply hsome
    rw [literal?, literals?_eq ih]
    rfl

theorem join_spellings (v : Value) (vs : List Value) :
    join comma ((v :: vs).map spelling) = spelling v ++ tailText vs := by
  induction vs generalizing v with
  | nil => simp [join_singleton, tailText]
  | cons w vs ih =>
    rw [List.map_cons, List.map_cons, join_cons_cons, ← List.map_cons, ih w, tailText_cons]
    rfl

theorem spelling_int {n : Int} (h : n.natAbs < Decimal.pow 10 maxDigits) :
    spelling (.int n) = Decimal.intText n := by
  rw [spelling, literal?, intText?, if_pos h]
  rfl

theorem spelling_list_nil : spelling (.list []) = ['[', ']'] := rfl

theorem spelling_list_cons (h : ∀ w ∈ v :: vs, Plain d w) :
    spelling (.list (v :: vs)) = '[' :: (spelling v ++ (tailText vs ++ [']'])) := by
  have hitems := literals?_eq fun w hw => (h w hw).literal?_eq
  rw [spelling, literal?, hitems, Option.map_some, Option.getD_some, join_spellings,
    List.append_assoc]

theorem spelling_tuple_cons (h : ∀ w ∈ v :: vs, Plain d w) :
    spelling (.tuple (v :: vs)) = '(' :: (spelling v ++ (tupleTailText vs ++ [')'])) := by
  have hitems := literals?_eq fun w hw => (h w hw).literal?_eq
  rw [spelling, literal?, hitems, Option.map_some, Option.getD_some]
  cases vs with
  | nil => rfl
  | cons w vs =>
    have hjoin := join_spellings v (w :: vs)
    rw [List.map_cons, List.map_cons] at hjoin ⊢
    dsimp only
    rw [hjoin, List.append_assoc]
    rfl

theorem le_toNat_of_mem_intText {n : Int} {c : Char} (h : c ∈ Decimal.intText n) :
    32 ≤ c.toNat := by
  have hdigit : ∀ {m : Nat}, c ∈ Decimal.natText m → 32 ≤ c.toNat := by
    intro m hm
    obtain ⟨k, hk, rfl⟩ := Decimal.mem_digits (by omega) hm
    exact Quoted.digitChar_ge (by omega)
  cases n with
  | ofNat m => exact hdigit h
  | negSucc m =>
    rw [Decimal.intText, List.mem_cons] at h
    cases h with
    | inl h => rw [h]; decide
    | inr h => exact hdigit h

/-- The characters that lists and tuples put around and between their items. -/
def marks : Text := ['[', ']', '(', ')', ',', ' ']

theorem mem_tailText {c : Char} (h : c ∈ tailText vs) :
    c ∈ marks ∨ ∃ v ∈ vs, c ∈ spelling v := by
  unfold tailText at h
  obtain ⟨v, hv, hc⟩ := List.mem_flatMap.1 h
  rw [List.mem_append] at hc
  cases hc with
  | inl hc =>
    have hcomma : ∀ c ∈ comma, c ∈ marks := List.all_iff_forall_prop.1 (by decide)
    exact .inl (hcomma c hc)
  | inr hc => exact .inr ⟨v, hv, hc⟩

theorem mem_spelling_list (h : ∀ v ∈ vs, Plain d v) {c : Char} (hc : c ∈ spelling (.list vs)) :
    c ∈ marks ∨ ∃ v ∈ vs, c ∈ spelling v := by
  cases vs with
  | nil =>
    have hempty : ∀ c ∈ spelling (.list []), c ∈ marks := List.all_iff_forall_prop.1 (by decide)
    exact .inl (hempty c hc)
  | cons v vs =>
    rw [spelling_list_cons h, List.mem_cons, List.mem_append, List.mem_append,
      List.mem_singleton] at hc
    rcases hc with rfl | hc | hc | rfl
    · exact .inl (by decide)
    · exact .inr ⟨v, List.mem_cons_self, hc⟩
    · apply (mem_tailText hc).imp_right
      exact fun ⟨w, hw, hc⟩ => ⟨w, List.mem_cons_of_mem v hw, hc⟩
    · exact .inl (by decide)

theorem mem_spelling_tuple (h : ∀ v ∈ vs, Plain d v) {c : Char} (hc : c ∈ spelling (.tuple vs)) :
    c ∈ marks ∨ ∃ v ∈ vs, c ∈ spelling v := by
  cases vs with
  | nil =>
    have hempty : ∀ c ∈ spelling (.tuple []), c ∈ marks := List.all_iff_forall_prop.1 (by decide)
    exact .inl (hempty c hc)
  | cons v vs =>
    rw [spelling_tuple_cons h, List.mem_cons, List.mem_append, List.mem_append,
      List.mem_singleton] at hc
    rcases hc with rfl | hc | hc | rfl
    · exact .inl (by decide)
    · exact .inr ⟨v, List.mem_cons_self, hc⟩
    · cases vs with
      | nil =>
        rw [tupleTailText, List.mem_singleton] at hc
        exact .inl (by rw [hc]; decide)
      | cons w vs =>
        apply (mem_tailText hc).imp_right
        exact fun ⟨x, hx, hc⟩ => ⟨x, List.mem_cons_of_mem v hx, hc⟩
    · exact .inl (by decide)

/-- No control character is in the text of a plain value. -/
theorem Plain.le_toNat (h : Plain d v) : ∀ c ∈ spelling v, 32 ≤ c.toNat := by
  have hmarks : ∀ c ∈ marks, 32 ≤ c.toNat := List.all_iff_forall_prop.1 (by decide)
  induction h with
  | none d => exact List.all_iff_forall_prop.1 (by decide)
  | bool d b => cases b <;> exact List.all_iff_forall_prop.1 (by decide)
  | int d hn =>
    rw [spelling_int hn]
    exact fun c => le_toNat_of_mem_intText
  | str d t => exact fun c => Quoted.le_toNat_of_mem_text
  | list hvs ih =>
    intro c hc
    cases mem_spelling_list hvs hc with
    | inl hc => exact hmarks c hc
    | inr hc =>
      obtain ⟨v, hv, hc⟩ := hc
      exact ih v hv c hc
  | tuple hvs ih =>
    intro c hc
    cases mem_spelling_tuple hvs hc with
    | inl hc => exact hmarks c hc
    | inr hc =>
      obtain ⟨v, hv, hc⟩ := hc
      exact ih v hv c hc

end VariableReport.Value
