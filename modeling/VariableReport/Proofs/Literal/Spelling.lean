import VariableReport.Proofs.Literal.Number
import VariableReport.Proofs.Value.Plain

/-!
# Tokens of plain values

The tokens of a plain value follow its shape: a constant, a number, perhaps behind a minus, a
text, or brackets with commas. Its literal has exactly these tokens wherever it stands with
a comma, a closing bracket or nothing behind it, as long as its own brackets do not
exceed the number that may be open (`lexes_spelling`).
-/

namespace VariableReport.Literal
open Value

variable {d n : Nat} {p : Place} {v : Value} {vs : List Value} {rest : Text} {ks : List Token}

mutual

def tokensOf : Value → List Token
  | .int (.negSucc n) => [.mark '-', .value (.int (n + 1))]
  | .list [] => [.mark '[', .mark ']']
  | .list (v :: vs) => .mark '[' :: (tokensOf v ++ (tailTokens vs ++ [.mark ']']))
  | .tuple [] => [.mark '(', .mark ')']
  | .tuple [v] => .mark '(' :: (tokensOf v ++ [.mark ',', .mark ')'])
  | .tuple (v :: w :: vs) => .mark '(' :: (tokensOf v ++ (tailTokens (w :: vs) ++ [.mark ')']))
  | v => [.value v]

def tailTokens : List Value → List Token
  | [] => []
  | v :: vs => .mark ',' :: (tokensOf v ++ tailTokens vs)

end

theorem delimited_tailText (vs : List Value) (hrest : Delimited rest) :
    Delimited (tailText vs ++ rest) := by
  cases vs with
  | nil => exact hrest
  | cons v vs =>
    rw [tailText_cons]
    exact .comma _

section
variable [Host]

/-- Wherever the value is printed, what is behind it has its tokens behind those of the
value. -/
def PrintsTokens (d : Nat) (v : Value) : Prop :=
  ∀ {p : Place} {rest : Text} {ks : List Token}, p.indent.getD 0 = 0 → p.depth + d ≤ maxDepth →
    Delimited rest → Lexes ⟨p.depth, none⟩ rest ks →
    Lexes p (spelling v ++ rest) (tokensOf v ++ ks)

theorem lexes_tailText (h : ∀ v ∈ vs, PrintsTokens d v) (hn : n + d ≤ maxDepth)
    (hrest : Delimited rest) (hks : Lexes ⟨n, none⟩ rest ks) :
    Lexes ⟨n, none⟩ (tailText vs ++ rest) (tailTokens vs ++ ks) := by
  induction vs with
  | nil => exact hks
  | cons v vs ih =>
    have htail := ih fun w hw => h w (List.mem_cons_of_mem v hw)
    have hitem := h v List.mem_cons_self (p := ⟨n, none⟩) rfl hn (delimited_tailText vs hrest) htail
    rw [tailText_cons, tailTokens, List.cons_append, List.cons_append, List.cons_append,
      List.append_assoc, List.append_assoc]
    exact (hitem.blank (p := ⟨n, none⟩)).comma (p := ⟨n, none⟩)

theorem lexes_constant {s : Text} (hs : (s, v) ∈ constants) (hp : p.indent.getD 0 = 0)
    (hrest : Delimited rest) (hks : Lexes ⟨p.depth, none⟩ rest ks) :
    Lexes p (s ++ rest) (.value v :: ks) := by
  have hstart : ∀ x ∈ constants, x.1.head?.all (· ∉ separators) = true ∧ x.1 ≠ [] := by decide
  obtain ⟨hhead, hne⟩ := hstart _ hs
  apply Lexes.piece _ hp (token?_constant hs hrest) (fun c => Token.noConfusion) hks
  obtain ⟨c, cs, rfl⟩ := List.exists_cons_of_ne_nil hne
  exact ⟨c, cs, rfl, by simpa using hhead⟩

theorem lexes_natText (hn : n < Decimal.pow 10 maxDigits) (hp : p.indent.getD 0 = 0)
    (hrest : Delimited rest) (hks : Lexes ⟨p.depth, none⟩ rest ks) :
    Lexes p (Decimal.natText n ++ rest) (.value (.int n) :: ks) := by
  apply Lexes.piece _ hp (token?_natText hn hrest) (fun c => Token.noConfusion) hks
  obtain ⟨c, cs, hcs, hc⟩ := Decimal.exists_natText n
  exact ⟨c, cs, hcs, Decimal.not_mem_of_isAsciiDigit (by decide) hc⟩

theorem lexes_text (t : Text) (hp : p.indent.getD 0 = 0) (hrest : Delimited rest)
    (hks : Lexes ⟨p.depth, none⟩ rest ks) :
    Lexes p (Quoted.text t ++ rest) (.value (.str t) :: ks) := by
  apply Lexes.piece _ hp (token?_text t hrest) (fun c => Token.noConfusion) hks
  refine ⟨_, _, rfl, ?_⟩
  cases isQuoteMark_quoteFor (t.contains Quoted.singleQuote) (t.contains Quoted.doubleQuote) with
  | inl hq => rw [hq]; decide
  | inr hq => rw [hq]; decide

theorem lexes_list (hvs : ∀ v ∈ vs, Plain d v) (h : ∀ v ∈ vs, PrintsTokens d v) :
    PrintsTokens (d + 1) (.list vs) := by
  intro p rest ks hp hd hrest hks
  have hdepth : p.depth < maxDepth := by omega
  have hclose : Lexes ⟨p.depth + 1, none⟩ (']' :: rest) (.mark ']' :: ks) := .closing (.inl rfl) hks
  cases vs with
  | nil => exact .opening (.inl rfl) hp hdepth hclose
  | cons v vs =>
    have htail := lexes_tailText (n := p.depth + 1) (fun w hw => h w (List.mem_cons_of_mem v hw))
      (by omega) (.bracket rest) hclose
    have hitem := h v List.mem_cons_self (p := ⟨p.depth + 1, none⟩) rfl (by simp only; omega)
      (delimited_tailText vs (.bracket rest)) htail
    rw [spelling_list_cons hvs, tokensOf]
    simpa using Lexes.opening (.inl rfl) hp hdepth hitem

theorem lexes_tuple (hvs : ∀ v ∈ vs, Plain d v) (h : ∀ v ∈ vs, PrintsTokens d v) :
    PrintsTokens (d + 1) (.tuple vs) := by
  intro p rest ks hp hd hrest hks
  have hdepth : p.depth < maxDepth := by omega
  have hclose : Lexes ⟨p.depth + 1, none⟩ (')' :: rest) (.mark ')' :: ks) := .closing (.inr rfl) hks
  match vs, hvs, h with
  | [], _, _ => exact .opening (.inr rfl) hp hdepth hclose
  | [v], hvs, h =>
    have hitem := h v List.mem_cons_self (p := ⟨p.depth + 1, none⟩) rfl (by simp only; omega)
      (.comma (')' :: rest)) (hclose.comma (p := ⟨p.depth + 1, none⟩))
    rw [spelling_tuple_cons hvs, tokensOf]
    simpa [tupleTailText] using Lexes.opening (.inr rfl) hp hdepth hitem
  | v :: w :: vs, hvs, h =>
    have htail := lexes_tailText (n := p.depth + 1) (fun x hx => h x (List.mem_cons_of_mem v hx))
      (by omega) (.paren rest) hclose
    have hitem := h v List.mem_cons_self (p := ⟨p.depth + 1, none⟩) rfl (by simp only; omega)
      (delimited_tailText (w :: vs) (.paren rest)) htail
    rw [spelling_tuple_cons hvs, tokensOf]
    simpa [tupleTailText] using Lexes.opening (.inr rfl) hp hdepth hitem

theorem lexes_spelling (h : Plain d v) : PrintsTokens d v := by
  induction h with
  | none d =>
    intro p rest ks hp _ hrest hks
    exact lexes_constant (.head _) hp hrest hks
  | bool d b =>
    intro p rest ks hp _ hrest hks
    cases b with
    | false => exact lexes_constant (.tail _ (.tail _ (.head _))) hp hrest hks
    | true => exact lexes_constant (.tail _ (.head _)) hp hrest hks
  | @int d n hn =>
    intro p rest ks hp _ hrest hks
    rw [spelling_int hn]
    cases n with
    | ofNat n => exact lexes_natText hn hp hrest hks
    | negSucc n => exact .minus hp (lexes_natText (p := ⟨p.depth, none⟩) hn rfl hrest hks)
  | str d t =>
    intro p rest ks hp _ hrest hks
    exact lexes_text t hp hrest hks
  | list hvs ih => exact lexes_list hvs ih
  | tuple hvs ih => exact lexes_tuple hvs ih

end

end VariableReport.Literal
