import VariableReport.Proofs.Json.Reads

/-!
# Where the reader of JSON stops

Two faults are not of form, and the text shows both. Too deep a nesting means that the brackets
outside strings open more containers than there is room for (`overflows`), and a whole number with
too many digits stands in the text as a run of them (`exceeds_read`).

Reading is followed as a walk from one place in the text to a later one (`Leads`), on which a
container that is read leaves as much room as there was in front of it (`Reads.leads`).
-/

namespace VariableReport.Json

variable {c : Char} {t u rest : Text} {j : Json} {room left depth n : Nat} {e : Stop} {p : Part}

/-! ### Brackets -/

def isOpening (c : Char) : Bool := c = '[' || c = '\x7b'

def isClosing (c : Char) : Bool := c = ']' || c = '\x7d'

/-- Whether a text opens a container where no more may be opened. The truth value tells whether the
text starts inside a string, and a closed container makes room for another one. -/
def overflows : Bool → Nat → Text → Bool
  | _, _, [] => false
  | true, room, '\\' :: _ :: t => overflows true room t
  | true, room, c :: t => overflows (c ≠ '\x22') room t
  | false, room, c :: t =>
    if c = '\x22' then overflows true room t
    else if isOpening c then room = 0 || overflows false (room - 1) t
    else if isClosing c then overflows false (room + 1) t
    else overflows false room t

/-- The characters that neither open nor close anything. -/
def isNeutral (c : Char) : Bool := c ≠ '\x22' && !isOpening c && !isClosing c

theorem overflows_opening (hc : isOpening c = true) (room : Nat) (t : Text) :
    overflows false room (c :: t) = (room = 0 || overflows false (room - 1) t) := by
  rw [overflows, if_neg (ne_of_class rfl hc), if_pos hc]

theorem overflows_neutral (h : isNeutral c = true) (room : Nat) (t : Text) :
    overflows false room (c :: t) = overflows false room t := by
  simp only [isNeutral, Bool.and_eq_true, decide_eq_true_eq, Bool.not_eq_true'] at h
  simp [overflows, h]

theorem Closes.overflows_eq (h : Closes t rest) (room : Nat) :
    overflows true room t = overflows false room rest := by
  induction h with
  | quote rest => rw [overflows.eq_def]; rfl
  | escape c _ ih => rw [overflows]; exact ih
  | @char c t rest hq hb _ ih =>
    rw [overflows.eq_def]
    split
    next h => cases h
    next h =>
      obtain ⟨rfl, -⟩ := List.cons.inj h
      exact absurd rfl hb
    next h =>
      obtain ⟨rfl, rfl⟩ := List.cons.inj h
      simpa [hq] using ih
    next => contradiction

/-! ### Walks -/

theorem Closes.suffix (h : Closes t rest) : rest <:+ t := by
  induction h with
  | quote rest => exact List.suffix_cons _ rest
  | escape c _ ih => exact (ih.trans (List.suffix_cons c _)).trans (List.suffix_cons _ _)
  | char _ _ _ ih => exact ih.trans (List.suffix_cons _ _)

/-- From a place in a text, with room for so many containers, reading comes to a later place. What
opens too many from there on opens too many from here. -/
structure Leads (room : Nat) (t : Text) (left : Nat) (rest : Text) : Prop where
  suffix : rest <:+ t
  overflows : overflows false left rest = true → overflows false room t = true

namespace Leads

theorem refl (room : Nat) (t : Text) : Leads room t room t := ⟨List.suffix_rfl, id⟩

theorem trans {mid : Nat} (h : Leads room t mid u) (k : Leads mid u left rest) :
    Leads room t left rest :=
  ⟨k.suffix.trans h.suffix, fun hrest => h.overflows (k.overflows hrest)⟩

theorem neutral (h : ∀ c ∈ u, isNeutral c = true) (room : Nat) (rest : Text) :
    Leads room (u ++ rest) room rest := by
  induction u with
  | nil => exact refl room rest
  | cons c u ih =>
    rw [List.forall_mem_cons] at h
    refine ⟨List.suffix_append _ rest, fun hrest => ?_⟩
    rw [List.cons_append, overflows_neutral h.1]
    exact (ih h.2).overflows hrest

theorem skipSpace (room : Nat) (t : Text) : Leads room t room (skipSpace t) := by
  have hspace : ∀ c ∈ t.takeWhile isSpace, isNeutral c = true := fun c hc => by
    have hc : isSpace c = true := List.all_eq_true.1 List.all_takeWhile c hc
    simp only [isSpace, Bool.or_eq_true, decide_eq_true_eq] at hc
    rcases hc with ((rfl | rfl) | rfl) | rfl <;> rfl
  have h := neutral hspace room (t.dropWhile isSpace)
  rwa [List.takeWhile_append_dropWhile] at h

/-- White space and then one character. -/
theorem char (h : Json.skipSpace t = c :: rest) (hc : isNeutral c = true) (room : Nat) :
    Leads room t room rest := by
  have hskip := skipSpace room t
  rw [h] at hskip
  exact hskip.trans (neutral (u := [c]) (by simpa using hc) room rest)

theorem closing (h : Json.skipSpace t = c :: rest) (hc : isClosing c = true) (room : Nat) :
    Leads room t (room + 1) rest := by
  have hskip := skipSpace room t
  rw [h] at hskip
  refine hskip.trans ⟨List.suffix_cons c rest, fun hrest => ?_⟩
  simp only [isClosing, Bool.or_eq_true, decide_eq_true_eq] at hc
  rcases hc with rfl | rfl <;> exact hrest

theorem opening (hc : isOpening c = true) (room : Nat) (t : Text) :
    Leads (room + 1) (c :: t) room t := by
  refine ⟨List.suffix_cons c t, fun h => ?_⟩
  rw [overflows_opening hc]
  simpa using h

/-- Where there is no room for a container, nothing needs to be known about what is in it. -/
theorem container (hc : isOpening c = true) (h : ∀ k, Leads k t (k + 1) rest) (room : Nat) :
    Leads room (c :: t) room rest := by
  cases room with
  | zero => exact ⟨(h 0).suffix.trans (List.suffix_cons c t), fun _ => overflows_opening hc 0 t⟩
  | succ k => exact (opening hc k t).trans (h k)

theorem string (h : Closes t rest) (room : Nat) : Leads room ('\x22' :: t) room rest := by
  refine ⟨h.suffix.trans (List.suffix_cons _ t), fun hrest => ?_⟩
  rw [Json.overflows, if_pos rfl, h.overflows_eq, hrest]

theorem atom (h : readAtom t = .ok (j, rest)) (room : Nat) : Leads room t room rest := by
  have hneutral (c : Char) (hc : isAtomChar c = true) : isNeutral c = true := by
    have hne (d : Char) (hd : isAtomChar d = false) : c ≠ d := ne_of_class hd hc
    simp [isNeutral, isOpening, isClosing, hne '\x22' rfl, hne '[' rfl, hne ']' rfl,
      hne '\x7b' rfl, hne '\x7d' rfl]
  have hatom := readsAtom_readAtom t
  rw [h] at hatom
  cases hatom with
  | @whole s u _ rest hs hdigits =>
    rw [← List.append_assoc]
    refine neutral (List.forall_mem_append.2 ⟨fun c hc => ?_, fun c hc => ?_⟩) room rest
    · exact hneutral c (hs.isAtomChar c hc)
    · exact hneutral c (isAtomChar_of_isDigit (hdigits c hc))
  | inexact rest _ hchars => exact neutral (fun c hc => hneutral c (hchars c hc)) room rest

end Leads

/-- The room that is made while a part is read: the items and the members are read up to the
bracket that closes them. -/
def Part.closing : Part → Nat
  | value _ => 0
  | items _ => 1
  | members _ => 1

theorem Reads.leads (h : Reads t p rest) (room : Nat) : Leads room t (room + p.closing) rest := by
  induction h generalizing room with
  | text hs => exact .string (closes_of_readChars hs) room
  | atom h => exact .atom h room
  | noItems h => exact .container rfl (fun k => .closing h rfl k) room
  | array _ ih => exact .container rfl (fun k => (Leads.skipSpace k _).trans (ih k)) room
  | noMembers h => exact .container rfl (fun k => .closing h rfl k) room
  | object _ ih => exact .container rfl (fun k => (Leads.skipSpace k _).trans (ih k)) room
  | lastItem _ hu ih => exact (ih room).trans (.closing hu rfl room)
  | item _ hu _ ihj ihjs =>
    exact ((ihj room).trans (.char hu rfl room)).trans ((Leads.skipSpace room _).trans (ihjs room))
  | lastMember hname hu _ hw ih =>
    have hvalue := (Leads.char hu rfl room).trans ((Leads.skipSpace room _).trans (ih room))
    exact ((Leads.string (closes_of_readChars hname) room).trans hvalue).trans (.closing hw rfl room)
  | member hname hu _ hw _ ihj ihms =>
    have hvalue := (Leads.char hu rfl room).trans ((Leads.skipSpace room _).trans (ihj room))
    have hrest := (Leads.char hw rfl room).trans ((Leads.skipSpace room _).trans (ihms room))
    exact ((Leads.string (closes_of_readChars hname) room).trans hvalue).trans hrest

/-! ### Faults -/

/-- What the text shows where reading stopped. -/
inductive Exceeds (room : Nat) (t : Text) : Stop → Prop
  | form (cause : Cause) (left : Nat) : Exceeds room t (.malformed cause left)
  | digits {u : Text} : u <:+: t → (∀ c ∈ u, isDigit c = true) → Value.maxDigits < u.length →
      Exceeds room t (.tooManyDigits u.length)
  | depth (container : Container) : overflows false room t = true →
      Exceeds room t (.tooDeep container)

theorem Leads.exceeds (h : Leads room t left u) (hu : Exceeds left u e) : Exceeds room t e := by
  cases hu with
  | form cause k => exact .form cause k
  | digits hv hdigits hlong => exact .digits (hv.trans h.suffix.isInfix) hdigits hlong
  | depth container hu => exact .depth container (h.overflows hu)

theorem exceeds_of_opening (hc : isOpening c = true) (container : Container) :
    Exceeds 0 (c :: t) (.tooDeep container) := .depth container (overflows_opening hc 0 t)

theorem exceeds_readUnits {opening : Nat} (h : readUnits opening t = .error e) :
    Exceeds room u e := by
  have hcons {k : Nat} {r : Reading (List Nat)} (h : r.cons k = .error e) : r = .error e := by
    cases r with
    | ok p => cases h
    | error e' => exact h
  fun_induction readUnits opening t with
  | case4 x y z d t k _ _ ih => exact ih (hcons h)
  | case7 c t _ _ d _ ih => exact ih (hcons h)
  | case8 => cases h
  | case11 c t _ _ _ _ _ _ ih => exact ih (hcons h)
  | _ =>
    cases h
    exact .form _ _

theorem exceeds_readChars {opening : Nat} (h : readChars opening t = .error e) :
    Exceeds room u e := by
  unfold readChars at h
  split at h
  next => cases h
  next e' he =>
    cases h
    exact exceeds_readUnits he

theorem exceeds_readAtom (h : readAtom t = .error e) : Exceeds room t e := by
  have hatom := readsAtom_readAtom t
  rw [h] at hatom
  cases hatom with
  | malformed _ k => exact .form _ k
  | @tooLong s u rest hs hdigits hlong =>
    exact .digits ((List.prefix_append u rest).isInfix.trans (List.suffix_append s _).isInfix)
      hdigits hlong

theorem exceeds_readItems
    (hvalue : ∀ {t e}, readValue n depth t = .error e → Exceeds depth t e)
    (hitems : ∀ {t e}, readItems n depth t = .error e → Exceeds depth t e)
    (h : readItems (n + 1) depth t = .error e) : Exceeds depth t e := by
  rw [readItems] at h
  split at h
  next e' he =>
    cases h
    exact hvalue he
  next j u hj =>
    have hu := ((reads_read n).1 hj).leads depth
    split at h
    next => cases h
    next v hv =>
      split at h
      next => cases h
      next e' he =>
        cases h
        exact (hu.trans ((Leads.char hv rfl depth).trans (.skipSpace depth v))).exceeds (hitems he)
    next =>
      cases h
      exact .form _ _

theorem exceeds_readMembers
    (hvalue : ∀ {t e}, readValue n depth t = .error e → Exceeds depth t e)
    (hmembers : ∀ {t e}, readMembers n depth t = .error e → Exceeds depth t e)
    (h : readMembers (n + 1) depth t = .error e) : Exceeds depth t e := by
  rw [readMembers.eq_def] at h
  dsimp only at h
  split at h
  next t =>
    split at h
    next e' he =>
      cases h
      exact exceeds_readChars he
    next name u hname =>
      have hu := Leads.string (closes_of_readChars hname) depth
      split at h
      next v hv =>
        have hv := hu.trans ((Leads.char hv rfl depth).trans (.skipSpace depth v))
        split at h
        next e' he =>
          cases h
          exact hv.exceeds (hvalue he)
        next j w hj =>
          have hw := hv.trans (((reads_read n).1 hj).leads depth)
          split at h
          next => cases h
          next x hx =>
            split at h
            next => cases h
            next e' he =>
              cases h
              exact (hw.trans ((Leads.char hx rfl depth).trans (.skipSpace depth x))).exceeds
                (hmembers he)
          next =>
            cases h
            exact .form _ _
      next =>
        cases h
        exact .form _ _
  next =>
    cases h
    exact .form _ _

theorem exceeds_readValue
    (hitems : ∀ {depth t e}, readItems n depth t = .error e → Exceeds depth t e)
    (hmembers : ∀ {depth t e}, readMembers n depth t = .error e → Exceeds depth t e)
    (h : readValue (n + 1) depth t = .error e) : Exceeds depth t e := by
  rw [readValue.eq_def] at h
  dsimp only at h
  split at h
  next t =>
    split at h
    next => cases h
    next e' he =>
      cases h
      exact exceeds_readChars he
  next t =>
    split at h
    next =>
      cases h
      exact exceeds_of_opening rfl _
    next k =>
      split at h
      next => cases h
      next =>
        split at h
        next => cases h
        next e' he =>
          cases h
          exact ((Leads.opening rfl k t).trans (.skipSpace k t)).exceeds (hitems he)
  next t =>
    split at h
    next =>
      cases h
      exact exceeds_of_opening rfl _
    next k =>
      split at h
      next => cases h
      next =>
        split at h
        next => cases h
        next e' he =>
          cases h
          exact ((Leads.opening rfl k t).trans (.skipSpace k t)).exceeds (hmembers he)
  next => exact exceeds_readAtom h

/-- The reader stops where the text shows a reason. -/
theorem exceeds_read (n : Nat) :
    (∀ {depth t e}, readValue n depth t = .error e → Exceeds depth t e) ∧
    (∀ {depth t e}, readItems n depth t = .error e → Exceeds depth t e) ∧
    (∀ {depth t e}, readMembers n depth t = .error e → Exceeds depth t e) := by
  induction n with
  | zero =>
    refine ⟨fun h => ?_, fun h => ?_, fun h => ?_⟩
    · rw [readValue] at h
      cases h
      exact .form _ _
    · rw [readItems] at h
      cases h
      exact .form _ _
    · rw [readMembers] at h
      cases h
      exact .form _ _
  | succ n ih =>
    obtain ⟨hvalue, hitems, hmembers⟩ := ih
    exact ⟨exceeds_readValue hitems hmembers, exceeds_readItems hvalue hitems,
      exceeds_readMembers hvalue hmembers⟩

section
variable [Host] {site : Site}

/-- The fault of a text is where the reader stopped. -/
theorem exceeds_of_read {f : Fault} (h : read t site = .error f) :
    ∃ e, Exceeds (Host.jsonDepth site) t e ∧ f = e.fault t := by
  rw [read] at h
  split at h
  next =>
    cases h
    refine ⟨_, .form .byteOrderMark t.length, ?_⟩
    rw [Stop.fault, Nat.sub_self]
  next =>
    unfold readAll at h
    split at h
    next e he =>
      cases h
      exact ⟨e, (Leads.skipSpace _ t).exceeds ((exceeds_read _).1 he), rfl⟩
    next =>
      split at h
      next => cases h
      next =>
        cases h
        exact ⟨_, .form .rest _, rfl⟩

theorem overflows_of_read {container : Container} (h : read t site = .error (.tooDeep container)) :
    overflows false (Host.jsonDepth site) t = true := by
  obtain ⟨e, hexceeds, he⟩ := exceeds_of_read h
  cases hexceeds with
  | form cause left => cases he
  | digits => cases he
  | depth _ hover => exact hover

end

end VariableReport.Json
