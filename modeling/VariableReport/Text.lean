/-!
# Text

A text is a list of characters, and every position, column and offset counts
characters. This file holds the searches and cuts that the rest of the library
shares. All of them read the text once from the left, and a match that has been
used is never looked at again.
-/

namespace VariableReport

abbrev Text := List Char

namespace Text

/-- Whether `part` stands somewhere in the text. The empty part always does. -/
def occursIn (part : Text) : Text → Bool
  | [] => part.isEmpty
  | c :: cs => part.isPrefixOf (c :: cs) || occursIn part cs

/-- The text from offset `start` up to `stop`; empty when they are out of order. -/
def slice (t : Text) (start stop : Nat) : Text := (t.drop start).take (stop - start)

/-- One pass of `remove`: `skip` characters of a match are still to be dropped. -/
def removeFrom (part : Text) : Nat → Text → Text
  | _, [] => []
  | skip + 1, _ :: cs => removeFrom part skip cs
  | 0, c :: cs =>
    if !part.isEmpty && part.isPrefixOf (c :: cs) then removeFrom part (part.length - 1) cs
    else c :: removeFrom part 0 cs

/-- The text without the occurrences of `part`, found from the left without overlap.
Nothing is removed for an empty part. -/
def remove (part t : Text) : Text := removeFrom part 0 t

/-- The pieces between the occurrences of one character; there is one piece more
than there are occurrences. -/
def splitOn (sep : Char) : Text → List Text
  | [] => [[]]
  | c :: cs =>
    if c = sep then [] :: splitOn sep cs
    else
      match splitOn sep cs with
      | [] => [[c]]
      | piece :: pieces => (c :: piece) :: pieces

/-- The pieces with `sep` between neighbours. -/
def join (sep : Text) (pieces : List Text) : Text := sep.intercalate pieces

/-- The two sides of the first `sep`, if there is one. -/
def cut (sep : Char) : Text → Option (Text × Text)
  | [] => none
  | c :: cs => if c = sep then some ([], cs) else (cut sep cs).map fun (a, b) => (c :: a, b)

/-- The two sides of the first occurrence of `part`, if there is one. -/
def cutAt (part : Text) : Text → Option (Text × Text)
  | [] => if part.isEmpty then some ([], []) else none
  | c :: cs =>
    if part.isPrefixOf (c :: cs) then some ([], (c :: cs).drop part.length)
    else (cutAt part cs).map fun (a, b) => (c :: a, b)

def startsWith (t start : Text) : Bool := start.isPrefixOf t

def endsWith (t stop : Text) : Bool := stop.isSuffixOf t

theorem splitOn_ne_nil (sep : Char) (t : Text) : splitOn sep t ≠ [] := by
  cases t with
  | nil => simp [splitOn]
  | cons c cs =>
    rw [splitOn]
    split
    · simp
    · split <;> simp

theorem cut_eq_some {sep : Char} {t a b : Text} (h : cut sep t = some (a, b)) :
    t = a ++ sep :: b ∧ sep ∉ a := by
  induction t generalizing a with
  | nil => simp [cut] at h
  | cons c cs ih =>
    rw [cut] at h
    split at h
    next hc => simp_all
    next hc =>
      obtain ⟨⟨a', b'⟩, hab, he⟩ := Option.map_eq_some_iff.1 h
      simp only [Prod.mk.injEq] at he
      obtain ⟨rfl, rfl⟩ := he
      obtain ⟨rfl, hn⟩ := ih hab
      exact ⟨rfl, by simp [hn, Ne.symm hc]⟩

theorem cutAt_eq_some {part t a b : Text} (h : cutAt part t = some (a, b)) :
    t = a ++ part ++ b := by
  induction t generalizing a with
  | nil =>
    rw [cutAt] at h
    split at h <;> simp_all
  | cons c cs ih =>
    rw [cutAt] at h
    split at h
    next hp =>
      obtain ⟨u, hu⟩ := List.isPrefixOf_iff_prefix.1 hp
      simp only [← hu, List.drop_left, Option.some.injEq, Prod.mk.injEq] at h
      simp [← hu, ← h.1, ← h.2]
    next hp =>
      obtain ⟨⟨a', b'⟩, hab, he⟩ := Option.map_eq_some_iff.1 h
      simp only [Prod.mk.injEq] at he
      obtain ⟨rfl, rfl⟩ := he
      simp [ih hab]

end Text

/-- Dictionary order by code point: a proper beginning comes first. -/
def Text.before : Text → Text → Bool
  | [], [] => false
  | [], _ :: _ => true
  | _ :: _, [] => false
  | a :: as, b :: bs => if a = b then Text.before as bs else a.toNat < b.toNat

end VariableReport
