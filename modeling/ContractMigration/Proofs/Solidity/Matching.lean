import ContractMigration.Proofs.Solidity.Placement

/-!
# The bracket that closes another

The search for a closer keeps a count of open brackets and stops where it becomes zero. What it finds can be told
without a count that is kept: the piece of text from the opener to the place opens as many brackets of the kind as it
closes, and every shorter beginning of it opens more than it closes (`ClosedAt`). Between the two brackets of such a
piece stands a text that is balanced in the kind (`closedAt_iff`), and balanced texts are what the search passes over.
Main statement: `matchingBracket_cases`, with both ways in which no search is made.
-/

namespace ContractMigration.Solidity

/-- From the index to the place as many brackets are opened as closed, and never that many on the way. -/
structure ClosedAt (opener closer : Char) (text : List Char) (index place : Nat) : Prop where
  behind : index < place
  inside : place < text.length
  total : (slice text index (place + 1)).count opener = (slice text index (place + 1)).count closer
  open_on_the_way : ∀ front, front <+: slice text index (place + 1) → front ≠ [] →
    front ≠ slice text index (place + 1) → front.count closer < front.count opener

/-! ### A piece with as many closers as openers -/

section Piece

variable {opener closer : Char} (hne : opener ≠ closer)
include hne

/-- A text in brackets is closed at its end and not before, provided that what is inside is balanced. -/
theorem Balanced.open_on_the_way {inside front : List Char} (h : Balanced opener closer inside)
    (hfront : front <+: opener :: (inside ++ [closer])) (hsome : front ≠ [])
    (hshorter : front ≠ opener :: (inside ++ [closer])) : front.count closer < front.count opener := by
  rcases List.prefix_cons_iff.1 hfront with rfl | ⟨behind, rfl, hbehind⟩
  · exact absurd rfl hsome
  · rcases List.prefix_concat_iff.1 hbehind with rfl | hinside
    · exact absurd rfl hshorter
    · have hle := h.front_le behind hinside
      rw [List.count_cons_of_ne hne, List.count_cons_self]
      omega

theorem Balanced.total_bracketed {inside : List Char} (h : Balanced opener closer inside) :
    (opener :: (inside ++ [closer])).count opener = (opener :: (inside ++ [closer])).count closer := by
  rw [List.count_cons_self, List.count_cons_of_ne hne, List.count_append, List.count_append, List.count_singleton_self,
    List.count_singleton, if_neg (by simpa using hne.symm), h.total, Nat.add_zero]

/-- A piece that closes as much as it opens, and no sooner, ends with a closer and is balanced in front of it. -/
theorem balanced_of_open_on_the_way {inside : List Char} {last : Char}
    (htotal : (opener :: (inside ++ [last])).count opener = (opener :: (inside ++ [last])).count closer)
    (hopen : ∀ front, front <+: opener :: (inside ++ [last]) → front ≠ [] → front ≠ opener :: (inside ++ [last]) →
      front.count closer < front.count opener) :
    last = closer ∧ Balanced opener closer inside := by
  have hbeginning : ∀ front, front <+: inside → front.count closer ≤ front.count opener := by
    intro front hfront
    have hlt := hopen (opener :: front)
      (List.cons_prefix_cons.2 ⟨rfl, hfront.trans (List.prefix_append inside [last])⟩) (List.cons_ne_nil _ _) ?_
    · rw [List.count_cons_of_ne hne, List.count_cons_self] at hlt
      omega
    · intro heq
      have hlength := congrArg List.length heq
      have hle := hfront.length_le
      simp only [List.length_cons, List.length_append, List.length_nil] at hlength
      omega
  have hinside := hbeginning inside List.prefix_rfl
  rw [List.count_cons_self, List.count_cons_of_ne hne, List.count_append, List.count_append] at htotal
  -- The last character makes up for the opener in front, and only a closer can.
  have hlast : last = closer := by
    by_contra hother
    rw [List.count_singleton (a := closer), if_neg (by simpa using hother)] at htotal
    omega
  subst hlast
  rw [List.count_singleton_self, List.count_singleton, if_neg (by simpa using hne.symm)] at htotal
  exact ⟨rfl, hbeginning, by omega⟩

/-- A bracket is closed behind a balanced text, and nowhere else. -/
theorem closedAt_iff {front rest : List Char} {place : Nat} :
    ClosedAt opener closer (front ++ opener :: rest) front.length place ↔
      ∃ inside after, rest = inside ++ closer :: after ∧ place = inside.length + (front.length + 1) ∧
        Balanced opener closer inside := by
  have hslice (inside after : List Char) (last : Char) :
      slice (front ++ opener :: (inside ++ last :: after)) front.length (inside.length + (front.length + 1) + 1) =
        opener :: (inside ++ [last]) := by
    rw [show front ++ opener :: (inside ++ last :: after) = front ++ ((opener :: (inside ++ [last])) ++ after) by simp]
    apply slice_append rfl
    simp only [List.length_cons, List.length_append, List.length_nil]
    omega
  constructor
  · intro h
    have hbehind := h.behind
    have hinside := h.inside
    rw [List.length_append, List.length_cons] at hinside
    obtain ⟨inside, last, after, rfl, hlength⟩ :
        ∃ inside last after, rest = inside ++ last :: after ∧ inside.length = place - (front.length + 1) := by
      have hlt : place - (front.length + 1) < rest.length := by omega
      refine ⟨rest.take (place - (front.length + 1)), rest[place - (front.length + 1)],
        rest.drop (place - (front.length + 1) + 1), ?_, ?_⟩
      · rw [List.getElem_cons_drop, List.take_append_drop]
      · rw [List.length_take]
        omega
    obtain rfl : place = inside.length + (front.length + 1) := by omega
    have htotal := h.total
    have hopen := h.open_on_the_way
    rw [hslice] at htotal hopen
    obtain ⟨rfl, hbalanced⟩ := balanced_of_open_on_the_way hne htotal hopen
    exact ⟨inside, after, rfl, rfl, hbalanced⟩
  · rintro ⟨inside, after, rfl, rfl, hbalanced⟩
    refine ⟨by omega, ?_, ?_, ?_⟩
    · simp only [List.length_cons, List.length_append]
      omega
    · rw [hslice]
      exact hbalanced.total_bracketed hne
    · rw [hslice]
      exact fun beginning => hbalanced.open_on_the_way hne

theorem closingFrom_eq_some_iff {rest : List Char} {length : Nat} :
    closingFrom opener closer 1 0 rest = some length ↔
      ∃ inside after, rest = inside ++ closer :: after ∧ inside.length = length ∧ Balanced opener closer inside := by
  refine ⟨exists_balanced_of_closingFrom hne, ?_⟩
  rintro ⟨inside, after, rfl, rfl, hbalanced⟩
  exact hbalanced.closingFrom hne after

end Piece

/-! ### What is answered at an index -/

section Head

variable {text rest : List Char} {index : Nat} {c : Char} (hdrop : text.drop index = c :: rest)
include hdrop

theorem matchingBracket_of_other (hc : closerOf? c = none) : matchingBracket text index = .error (.notAnOpener c) := by
  simp only [matchingBracket, hdrop, hc]

theorem matchingBracket_of_opener {closer : Char} (hc : closerOf? c = some closer) :
    matchingBracket text index = .ok (closingFrom c closer 1 (index + 1) rest) := by
  simp only [matchingBracket, hdrop, hc]

end Head

theorem matchingBracket_eq_outOfRange_iff {text : List Char} {index : Nat} :
    matchingBracket text index = .error .outOfRange ↔ text.length ≤ index := by
  rw [← List.drop_eq_nil_iff]
  cases hdrop : text.drop index with
  | nil => simp [matchingBracket, hdrop]
  | cons c rest =>
    cases hcloser : closerOf? c with
    | none => simp [matchingBracket_of_other hdrop hcloser]
    | some closer => simp [matchingBracket_of_opener hdrop hcloser]

theorem closerOf?_eq_none_iff {c : Char} : closerOf? c = none ↔ c ∉ ['(', '[', '\x7b'] := by
  unfold closerOf?
  split <;> simp_all

theorem matchingBracket_eq_notAnOpener_iff {text : List Char} {index : Nat} {c : Char} :
    matchingBracket text index = .error (.notAnOpener c) ↔ text[index]? = some c ∧ c ∉ ['(', '[', '\x7b'] := by
  rw [← closerOf?_eq_none_iff, ← List.head?_drop]
  cases hdrop : text.drop index with
  | nil => simp [matchingBracket, hdrop]
  | cons d rest =>
    rw [List.head?_cons, Option.some.injEq]
    cases hcloser : closerOf? d with
    | none =>
      rw [matchingBracket_of_other hdrop hcloser, Except.error.injEq, BracketError.notAnOpener.injEq]
      exact ⟨fun heq => ⟨heq, heq ▸ hcloser⟩, And.left⟩
    | some closer =>
      rw [matchingBracket_of_opener hdrop hcloser]
      refine iff_of_false (by simp) ?_
      rintro ⟨rfl, hnone⟩
      exact absurd hcloser (by simp [hnone])

/-- The answer at an opener: the one place where it is closed, if there is one. -/
theorem matchingBracket_eq_some_iff {opener closer : Char} (hcloser : closerOf? opener = some closer)
    (hne : opener ≠ closer) (front rest : List Char) (place : Nat) :
    matchingBracket (front ++ opener :: rest) front.length = .ok (some place) ↔
      ClosedAt opener closer (front ++ opener :: rest) front.length place := by
  rw [matchingBracket_append hcloser, Except.ok.injEq, Option.map_eq_some_iff, closedAt_iff hne]
  constructor
  · rintro ⟨length, hclosing, rfl⟩
    obtain ⟨inside, after, hrest, rfl, hbalanced⟩ := (closingFrom_eq_some_iff hne).1 hclosing
    exact ⟨inside, after, hrest, rfl, hbalanced⟩
  · rintro ⟨inside, after, hrest, rfl, hbalanced⟩
    exact ⟨inside.length, (closingFrom_eq_some_iff hne).2 ⟨inside, after, hrest, rfl, hbalanced⟩, rfl⟩

/-- A bracket is looked for exactly at an opener of one of the three kinds. What is found there is the one place at
which the opener is closed, and nothing is found exactly if there is no such place. -/
theorem matchingBracket_cases (text : List Char) (index : Nat) :
    (matchingBracket text index = .error .outOfRange ↔ text.length ≤ index) ∧
      (∀ c, matchingBracket text index = .error (.notAnOpener c) ↔
        text[index]? = some c ∧ c ∉ ['(', '[', '\x7b']) ∧
      ∀ opener closer, (opener, closer) ∈ [('(', ')'), ('[', ']'), ('\x7b', '\x7d')] → text[index]? = some opener →
        ∃ found, matchingBracket text index = .ok found ∧
          (∀ place, found = some place → ClosedAt opener closer text index place ∧
            ∀ other, ClosedAt opener closer text index other → other = place) ∧
          (found = none ↔ ¬∃ place, ClosedAt opener closer text index place) := by
  refine ⟨matchingBracket_eq_outOfRange_iff, fun c => matchingBracket_eq_notAnOpener_iff, ?_⟩
  intro opener closer hkind hopener
  have hcloser : closerOf? opener = some closer ∧ opener ≠ closer := by
    simp only [List.mem_cons, Prod.mk.injEq, List.not_mem_nil, or_false] at hkind
    rcases hkind with ⟨rfl, rfl⟩ | ⟨rfl, rfl⟩ | ⟨rfl, rfl⟩ <;> decide
  obtain ⟨front, rest, rfl, rfl⟩ : ∃ front rest, text = front ++ opener :: rest ∧ front.length = index := by
    obtain ⟨hlt, rfl⟩ := List.getElem?_eq_some_iff.1 hopener
    refine ⟨text.take index, text.drop (index + 1), ?_, List.length_take_of_le (Nat.le_of_lt hlt)⟩
    rw [List.getElem_cons_drop, List.take_append_drop]
  have hplace := matchingBracket_eq_some_iff hcloser.1 hcloser.2 front rest
  cases hfound : matchingBracket (front ++ opener :: rest) front.length with
  | error error => exact absurd hfound (by simp [matchingBracket_append hcloser.1])
  | ok found =>
    simp only [hfound, Except.ok.injEq] at hplace
    refine ⟨found, rfl, fun place hsome => ⟨(hplace place).1 hsome, fun other hother => ?_⟩, ?_⟩
    · exact Option.some.inj (((hplace other).2 hother).symm.trans hsome)
    · rw [Option.eq_none_iff_forall_ne_some]
      simp only [ne_eq, hplace, not_exists]

/-- Brackets of another kind do not count, neither inside nor behind. -/
theorem matchingBracket_cases_mapping :
    let text := "m(a(b] => c))".toList
    ('(', ')') ∈ [('(', ')'), ('[', ']'), ('\x7b', '\x7d')] ∧ text[1]? = some '(' ∧
      matchingBracket text 1 = .ok (some 12) ∧ ClosedAt '(' ')' text 1 12 := by
  intro text
  have hkind : ('(', ')') ∈ [('(', ')'), ('[', ']'), ('\x7b', '\x7d')] := by decide
  have hopener : text[1]? = some '(' := by decide
  obtain ⟨found, hfound, hclosed, -⟩ := (matchingBracket_cases text 1).2.2 '(' ')' hkind hopener
  have hplace : matchingBracket text 1 = .ok (some 12) := by decide
  rw [hplace, Except.ok.injEq] at hfound
  exact ⟨hkind, hopener, hplace, (hclosed 12 hfound.symm).1⟩

end ContractMigration.Solidity
