import VariableReport.Records.Graph
import Mathlib.Logic.Relation

/-!
# Searching in any order

A search takes one name after the other from its stack. In what order the references of a name
come to lie there is left open (`Round`). Between two rounds the names on the stack are reached
from the start, and what has been seen is closed under references up to the stack (`Invariant`).
Every round uses up one of the references that are still to be followed (`outstanding`), for a name
is expanded only once.

So no run is longer than the graph is large, and in whatever order references are followed a run
ends with the answer of `reaches` (`reaches_of_rounds`). The search itself is one of these runs
(`exists_rounds_search`), so that its answer is read off the invariant too (`reaches_iff`).
-/

namespace VariableReport.Graph
open Relation

variable {g : Graph} {target start name a b : Text} {seen stack : List Text} {n : Nat}

/-- The second name is among those the first refers to. -/
def Edge (g : Graph) (a b : Text) : Prop := b ∈ g.successors a

/-- The names that a search has seen and those that it has still to look at. -/
structure Search where
  seen : List Text
  stack : List Text
  deriving DecidableEq, Repr

variable {s u v : Search}

def Search.initial (name : Text) : Search := ⟨[], [name]⟩

/-- What a search says when it is over. -/
def Search.answer? (target : Text) (s : Search) : Option Bool :=
  match s.stack with
  | [] => some false
  | name :: _ => if name = target then some true else none

/-- One name is taken from the stack. A name that was not seen before leaves its references there,
in any order. -/
inductive Round (g : Graph) (target : Text) : Search → Search → Prop
  | skip {name : Text} {seen stack : List Text} : name ≠ target → name ∈ seen →
      Round g target ⟨seen, name :: stack⟩ ⟨seen, stack⟩
  | expand {name : Text} {seen stack : List Text} (refs : List Text) : name ≠ target →
      name ∉ seen → refs.Perm (g.successors name) →
      Round g target ⟨seen, name :: stack⟩ ⟨name :: seen, refs ++ stack⟩

inductive Rounds (g : Graph) (target : Text) : Nat → Search → Search → Prop
  | done {s : Search} : Rounds g target 0 s s
  | round {s u v : Search} {n : Nat} : Round g target s u → Rounds g target n u v →
      Rounds g target (n + 1) s v

/-! ### The answer -/

/-- A search goes on exactly as long as it has no answer. -/
theorem exists_round_iff : (∃ u, Round g target s u) ↔ s.answer? target = none := by
  constructor
  · intro ⟨u, hround⟩
    cases hround with
    | skip hne _ => simp [Search.answer?, hne]
    | expand _ hne _ _ => simp [Search.answer?, hne]
  · intro hanswer
    obtain ⟨seen, stack⟩ := s
    cases stack with
    | nil => simp [Search.answer?] at hanswer
    | cons name stack =>
      have hne : name ≠ target := by simpa [Search.answer?] using hanswer
      by_cases hseen : name ∈ seen
      · exact ⟨_, .skip hne hseen⟩
      · exact ⟨_, .expand _ hne hseen (List.Perm.refl _)⟩

/-- What is true between two rounds of a search from `start`. -/
structure Invariant (g : Graph) (target start : Text) (s : Search) : Prop where
  reached : ∀ name ∈ s.stack, ReflTransGen g.Edge start name
  begun : start ∈ s.seen ∨ start ∈ s.stack
  closed : ∀ a ∈ s.seen, ∀ b, g.Edge a b → b ∈ s.seen ∨ b ∈ s.stack
  missing : target ∉ s.seen

theorem invariant_initial : Invariant g target start (.initial start) where
  reached name hname := by rw [List.mem_singleton.1 hname]
  begun := .inr (List.mem_singleton_self start)
  closed a ha := by simp [Search.initial] at ha
  missing := by simp [Search.initial]

theorem Invariant.skip (h : Invariant g target start ⟨seen, name :: stack⟩) (hname : name ∈ seen) :
    Invariant g target start ⟨seen, stack⟩ := by
  -- The name that leaves the stack has been seen, so nothing is lost with it.
  have hkept {x : Text} (hx : x ∈ seen ∨ x ∈ name :: stack) : x ∈ seen ∨ x ∈ stack := by
    rcases hx with hx | hx
    · exact .inl hx
    · rcases List.mem_cons.1 hx with rfl | hx
      · exact .inl hname
      · exact .inr hx
  exact {
    reached := fun x hx => h.reached x (List.mem_cons_of_mem name hx)
    begun := hkept h.begun
    closed := fun a ha b hab => hkept (h.closed a ha b hab)
    missing := h.missing }

theorem Invariant.expand {refs : List Text} (h : Invariant g target start ⟨seen, name :: stack⟩)
    (hne : name ≠ target) (hrefs : refs.Perm (g.successors name)) :
    Invariant g target start ⟨name :: seen, refs ++ stack⟩ := by
  have hkept {x : Text} (hx : x ∈ seen ∨ x ∈ name :: stack) :
      x ∈ name :: seen ∨ x ∈ refs ++ stack := by
    rcases hx with hx | hx
    · exact .inl (List.mem_cons_of_mem name hx)
    · rcases List.mem_cons.1 hx with rfl | hx
      · exact .inl List.mem_cons_self
      · exact .inr (List.mem_append_right refs hx)
  have hedge {x : Text} : x ∈ refs ↔ g.Edge name x := hrefs.mem_iff
  refine ⟨fun x hx => ?_, hkept h.begun, fun a ha b hab => ?_, ?_⟩
  · rcases List.mem_append.1 hx with hx | hx
    · exact .tail (h.reached name List.mem_cons_self) (hedge.1 hx)
    · exact h.reached x (List.mem_cons_of_mem name hx)
  · rcases List.mem_cons.1 ha with rfl | ha
    · exact .inr (List.mem_append_left stack (hedge.2 hab))
    · exact hkept (h.closed a ha b hab)
  · exact List.not_mem_cons_of_ne_of_not_mem (Ne.symm hne) h.missing

theorem Invariant.round (h : Invariant g target start s) (hround : Round g target s u) :
    Invariant g target start u := by
  cases hround with
  | skip _ hseen => exact h.skip hseen
  | expand _ hne _ hrefs => exact h.expand hne hrefs

theorem Invariant.rounds (h : Invariant g target start s) (hrounds : Rounds g target n s u) :
    Invariant g target start u := by
  induction hrounds with
  | done => exact h
  | round hround _ ih => exact ih (h.round hround)

/-- When a search is over, its answer is whether references lead from the start to the target. -/
theorem Invariant.answer_iff {answer : Bool} (h : Invariant g target start s)
    (hanswer : s.answer? target = some answer) :
    answer = true ↔ ReflTransGen g.Edge start target := by
  obtain ⟨seen, stack⟩ := s
  cases stack with
  | nil =>
    -- With an empty stack the names seen are closed under references, and the start is one of them.
    have hseen {x : Text} (hx : ReflTransGen g.Edge start x) : x ∈ seen := by
      induction hx with
      | refl => simpa using h.begun
      | tail _ hedge ih => simpa using h.closed _ ih _ hedge
    obtain rfl : false = answer := Option.some.inj hanswer
    exact iff_of_false (by simp) fun hchain => h.missing (hseen hchain)
  | cons name stack =>
    by_cases hname : name = target
    · subst hname
      have htrue : true = answer := by simpa [Search.answer?] using hanswer
      exact iff_of_true htrue.symm (h.reached name List.mem_cons_self)
    · simp [Search.answer?, hname] at hanswer

/-- The search is a run that follows references in the order in which they are listed. -/
theorem exists_rounds_search (g : Graph) (target : Text) (seen stack : List Text) :
    ∃ n s, Rounds g target n ⟨seen, stack⟩ s ∧
      s.answer? target = some (g.search target seen stack) := by
  fun_induction search g target seen stack with
  | case1 seen => exact ⟨0, _, .done, rfl⟩
  | case2 seen stack => exact ⟨0, _, .done, if_pos rfl⟩
  | case3 seen name stack hne hseen ih =>
    obtain ⟨n, s, hrounds, hanswer⟩ := ih
    exact ⟨n + 1, s, .round (.skip hne hseen) hrounds, hanswer⟩
  | case4 seen name stack hne hseen ih =>
    obtain ⟨n, s, hrounds, hanswer⟩ := ih
    exact ⟨n + 1, s, .round (.expand _ hne hseen (List.Perm.refl _)) hrounds, hanswer⟩

theorem reaches_iff : g.reaches a b = true ↔ ReflTransGen g.Edge a b := by
  obtain ⟨n, s, hrounds, hanswer⟩ := exists_rounds_search g b [] [a]
  exact (invariant_initial.rounds hrounds).answer_iff hanswer

/-! ### The number of rounds -/

/-- How many references there are in all. -/
def size (g : Graph) : Nat := (g.flatMap fun (_, refs) => refs).length

/-- How many references the listed names have that have not been seen. -/
def unfollowed (g : Graph) (seen : List Text) : Nat :=
  (g.flatMap fun (name, refs) => if seen.contains name then [] else refs).length

/-- How many names may still be taken from the stack. -/
def outstanding (g : Graph) (s : Search) : Nat := s.stack.length + g.unfollowed s.seen

@[simp] theorem unfollowed_nil (g : Graph) : g.unfollowed [] = g.size := by
  simp [unfollowed, size]

theorem unfollowed_cons (name : Text) (refs : List Text) (g : Graph) (seen : List Text) :
    unfollowed ((name, refs) :: g) seen =
      (if name ∈ seen then 0 else refs.length) + unfollowed g seen := by
  rw [unfollowed, List.flatMap_cons, List.length_append]
  by_cases hname : name ∈ seen <;> simp [hname, unfollowed]

theorem unfollowed_mono (g : Graph) (name : Text) (seen : List Text) :
    g.unfollowed (name :: seen) ≤ g.unfollowed seen := by
  induction g with
  | nil => exact Nat.le_refl _
  | cons entry g ih =>
    obtain ⟨key, refs⟩ := entry
    rw [unfollowed_cons, unfollowed_cons]
    by_cases hkey : key ∈ seen
    · simpa [hkey] using ih
    · simp only [List.mem_cons, hkey, or_false, if_false]
      split <;> omega

/-- The references of a name that is seen for the first time are counted no more. -/
theorem unfollowed_add_le (hname : name ∉ seen) :
    g.unfollowed (name :: seen) + (g.successors name).length ≤ g.unfollowed seen := by
  induction g with
  | nil => exact Nat.le_refl _
  | cons entry g ih =>
    obtain ⟨key, refs⟩ := entry
    rw [unfollowed_cons, unfollowed_cons]
    by_cases hkey : name = key
    · subst hkey
      have hrefs : successors ((name, refs) :: g) name = refs := by simp [successors]
      have hmono := unfollowed_mono g name seen
      simp only [hrefs, List.mem_cons_self, hname, if_true, if_false]
      omega
    · have hrefs : successors ((key, refs) :: g) name = successors g name := by
        simp [successors, List.lookup_cons, beq_false_of_ne hkey]
      simp only [hrefs, List.mem_cons, Ne.symm hkey, false_or]
      omega

/-- Every round uses up a reference, or the start. -/
theorem Round.outstanding_lt (h : Round g target s u) : g.outstanding u < g.outstanding s := by
  cases h with
  | skip _ _ => simp [outstanding]
  | @expand name seen stack refs _ hseen hrefs =>
    have hfollowed := @unfollowed_add_le g name seen hseen
    have hlength := hrefs.length_eq
    simp only [outstanding, List.length_append, List.length_cons]
    omega

theorem Rounds.add_outstanding_le (h : Rounds g target n s u) :
    n + g.outstanding u ≤ g.outstanding s := by
  induction h with
  | done => simp
  | round hround _ ih =>
    have hless := hround.outstanding_lt
    omega

theorem Rounds.le_size (h : Rounds g target n (.initial start) s) : n ≤ g.size + 1 := by
  have hbound := h.add_outstanding_le
  simp only [outstanding, Search.initial, unfollowed_nil, List.length_singleton] at hbound
  omega

/-! ### All runs -/

/-- The search decides whether a chain of references leads from the start to the target, and so
does every other one that puts the references of a name on the stack in an order of its own: it is
over after no more rounds than there are references and one, and it is over exactly when it has
this answer. -/
theorem reaches_of_rounds (g : Graph) (start target : Text) :
    (g.reaches start target = true ↔ target = start ∨ TransGen g.Edge start target) ∧
      ∀ n s, Rounds g target n (.initial start) s → n ≤ g.size + 1 ∧
        ((¬∃ u, Round g target s u) ↔ s.answer? target = some (g.reaches start target)) := by
  refine ⟨reaches_iff.trans reflTransGen_iff_eq_or_transGen, fun n s h => ⟨h.le_size, ?_⟩⟩
  rw [exists_round_iff]
  cases hanswer : s.answer? target with
  | none => simp
  | some answer =>
    have hiff := (invariant_initial.rounds h).answer_iff hanswer
    have hsame : answer = g.reaches start target := Bool.eq_iff_iff.2 (hiff.trans reaches_iff.symm)
    simp [hsame]

/-- Two names that refer to each other, and one that is not listed. -/
def roundabout : Graph :=
  [("a".toList, ["b".toList, "c".toList]), ("b".toList, ["a".toList])]

theorem reaches_of_rounds_roundabout :
    Rounds roundabout "d".toList 4 (.initial "a".toList)
        ⟨["b".toList, "c".toList, "a".toList], []⟩ ∧
      4 ≤ roundabout.size + 1 ∧
      Search.answer? "d".toList ⟨["b".toList, "c".toList, "a".toList], []⟩ =
        some (roundabout.reaches "a".toList "d".toList) := by
  have hrun : Rounds roundabout "d".toList 4 (.initial "a".toList)
      ⟨["b".toList, "c".toList, "a".toList], []⟩ :=
    .round (.expand ["c".toList, "b".toList] (by decide) (by decide) (by decide))
      (.round (.expand [] (by decide) (by decide) (by decide))
        (.round (.expand ["a".toList] (by decide) (by decide) (by decide))
          (.round (.skip (by decide) (by decide)) .done)))
  have hover : ¬∃ u, Round roundabout "d".toList ⟨["b".toList, "c".toList, "a".toList], []⟩ u :=
    fun ⟨u, hround⟩ => nomatch hround
  obtain ⟨hlength, hanswer⟩ := (reaches_of_rounds roundabout "a".toList "d".toList).2 4 _ hrun
  exact ⟨hrun, hlength, hanswer.1 hover⟩

end VariableReport.Graph
